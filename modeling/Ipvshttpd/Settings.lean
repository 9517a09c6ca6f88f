import Ipvshttpd.Configuration

/-!
# Settings

The abstract view of a configuration: the eleven keys with their typed values, and the files that
assign values to them. A line of such a file carries the proof that it is well formed.
-/

namespace Ipvshttpd

open CLib

/-- The keys of a configuration. -/
inductive Key where
  /-- `port` -/
  | port
  /-- `listen_address` -/
  | listenAddress
  /-- `log_verbosity` -/
  | logVerbosity
  /-- `log_sinks` -/
  | logSinks
  /-- `threads` -/
  | threads
  /-- `api_key` -/
  | apiKey
  /-- `vip` -/
  | vip
  /-- `use_ssl` -/
  | useSsl
  /-- `ssl_key_file` -/
  | sslKeyFile
  /-- `ssl_cert_chain_file` -/
  | sslCertChainFile
  /-- `ssl_dh_file` -/
  | sslDhFile
  deriving DecidableEq

/-- The name of a key in a file. -/
def Key.name : Key → Str
  | .port => lit "port"
  | .listenAddress => lit "listen_address"
  | .logVerbosity => lit "log_verbosity"
  | .logSinks => lit "log_sinks"
  | .threads => lit "threads"
  | .apiKey => lit "api_key"
  | .vip => lit "vip"
  | .useSsl => lit "use_ssl"
  | .sslKeyFile => lit "ssl_key_file"
  | .sslCertChainFile => lit "ssl_cert_chain_file"
  | .sslDhFile => lit "ssl_dh_file"

/-- The value of a key. -/
inductive Setting where
  /-- A number. -/
  | number (n : Int)
  /-- Yes or no. -/
  | flag (b : Bool)
  /-- A text. -/
  | text (s : Str)
  deriving DecidableEq

/-- What the getters return. -/
def ConfigurationManager.get (m : ConfigurationManager) : Key → Setting
  | .port => .number m.getPort
  | .listenAddress => .text m.getListenAddress
  | .logVerbosity => .text m.getLogVerbosity
  | .logSinks => .text m.getLogSinks
  | .threads => .number m.getThreads
  | .apiKey => .text m.getApiKey
  | .vip => .text m.getVip
  | .useSsl => .flag m.getSsl
  | .sslKeyFile => .text m.getSslKeyFile
  | .sslCertChainFile => .text m.getSslCertChainFile
  | .sslDhFile => .text m.getSslDhFile

/-- A text of white space only. -/
def Blank (s : Str) : Prop := ∀ c ∈ s, isspace c = true

instance (s : Str) : Decidable (Blank s) := inferInstanceAs (Decidable (∀ c ∈ s, isspace c = true))

/-- A text that neither begins nor ends with white space. -/
structure Trimmed (s : Str) : Prop where
  /-- It does not begin with white space. -/
  head : ∀ c ∈ s.head?, isspace c = false
  /-- It does not end with white space. -/
  last : ∀ c ∈ s.getLast?, isspace c = false

/-- `key.Prints value s`: the text `s` stands for the value of the key. Port and threads are decimal
    numbers in the range of `int`, SSL is switched on by yes or true in any letter case and left off
    by no, and the other values are any texts without a line break and without white space around
    them. -/
inductive Key.Prints : Key → Setting → Str → Prop where
  /-- A number in decimal digits. -/
  | number {key : Key} (hkey : key = .port ∨ key = .threads) {n : Int} (hmin : -2 ^ 31 ≤ n)
      (hmax : n < 2 ^ 31) : Prints key (.number n) (decimal n)
  /-- SSL is switched on. -/
  | on {s : Str} (hs : strToLower s = lit "yes" ∨ strToLower s = lit "true") :
      Prints .useSsl (.flag true) s
  /-- SSL is left off. -/
  | off : Prints .useSsl (.flag false) (lit "no")
  /-- A text stands for itself. -/
  | text {key : Key} (hkey : key ≠ .port ∧ key ≠ .threads ∧ key ≠ .useSsl) {s : Str}
      (hline : 10 ∉ s) (htrim : Trimmed s) : Prints key (.text s) s

/-- White space within a line. -/
structure Padding where
  /-- The white space. -/
  text : Str
  /-- It is white space. -/
  blank : Blank text
  /-- It has no line break. -/
  line : 10 ∉ text

/-- A line that assigns a value to a key. -/
structure Assignment where
  /-- The key. -/
  key : Key
  /-- The value of the key. -/
  value : Setting
  /-- The white space before the key. -/
  lead : Padding
  /-- The white space after the colon. -/
  gap : Padding
  /-- The white space after the value. -/
  trail : Padding
  /-- The key in any letter case. -/
  keyText : Str
  /-- The text of the value. -/
  valueText : Str
  /-- The text of the key spells its name. -/
  spells : strToLower keyText = key.name
  /-- The text of the value stands for it. -/
  prints : key.Prints value valueText

/-- A line of a configuration file. -/
inductive FileLine where
  /-- A blank line. -/
  | blank (p : Padding)
  /-- A comment, which begins with `#`. -/
  | comment (lead : Padding) (rest : Str) (line : 10 ∉ rest)
  /-- A line that assigns a value to a key. -/
  | assignment (a : Assignment)

/-- The text of a line, without the line break. -/
def FileLine.text : FileLine → Str
  | .blank p => p.text
  | .comment lead rest _ => lead.text ++ 35 :: rest
  | .assignment a =>
    a.lead.text ++ (a.keyText ++ 58 :: (a.gap.text ++ (a.valueText ++ a.trail.text)))

/-- The assignments among the lines. -/
def assignments (ls : List FileLine) : List Assignment :=
  ls.filterMap fun
    | .assignment a => some a
    | _ => none

/-- A configuration file: lines that end with a line break, and perhaps a last one without. No key
    is assigned twice. -/
structure ConfigFile where
  /-- The lines that end with a line break. -/
  lines : List FileLine
  /-- A last line without one. -/
  last : Option FileLine
  /-- No key is assigned twice. -/
  distinct : ((assignments (lines ++ last.toList)).map Assignment.key).Nodup

namespace ConfigFile

/-- The text of the file. -/
def contents (f : ConfigFile) : Str :=
  (f.lines.flatMap fun l => l.text ++ [10]) ++ (f.last.map FileLine.text).getD []

/-- The value that the file assigns to a key. -/
def value (f : ConfigFile) (key : Key) : Option Setting :=
  ((assignments (f.lines ++ f.last.toList)).find? fun a => a.key = key).map Assignment.value

end ConfigFile

end Ipvshttpd
