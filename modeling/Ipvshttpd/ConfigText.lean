import Ipvshttpd.Settings

/-!
# Lines of configuration files

What the lines of any file say about the keys, for a file that assigns to a key as often as it likes
and that may be rejected: the values that it gives for a key, the lines that later ones replace, and
the white space around keys and values.
-/

namespace Ipvshttpd

open CLib

/-- The value of a line that assigns to the key. -/
def settingOf (key : Key) (line : Str) : Option Str :=
  match parseLine line with
  | .setting name value => if name = key.name then some value else none
  | _ => none

/-- The values that a file gives for a key, in their order. -/
def settings (key : Key) (contents : Str) : List Str :=
  (rawLines contents).filterMap (settingOf key)

/-- A line that `open` accepts: nothing to read, or an assignment to one of the keys. -/
def Accepted (line : Str) : Prop :=
  parseLine line = .skip ∨ ∃ (key : Key) (value : Str), parseLine line = .setting key.name value

/-- Two files of the same name leave the same settings behind, and both or none is accepted. -/
def SameOpen (m : ConfigurationManager) (filename contents contents' : Str) : Prop :=
  (m.openFile filename (some contents)).valid = (m.openFile filename (some contents')).valid ∧
  ∀ key : Key, (m.openFile filename (some contents)).manager.get key =
    (m.openFile filename (some contents')).manager.get key

/-! ## The effect of an assignment -/

/-- A value of `use_ssl` that switches SSL on. -/
def SwitchesOn (value : Str) : Prop := strToLower value = lit "yes" ∨ strToLower value = lit "true"

instance (value : Str) : Decidable (SwitchesOn value) := inferInstanceAs (Decidable (_ ∨ _))

/-- The setting of a key after an assignment to it; `old` is the setting before. -/
def Key.update (key : Key) (old : Setting) (value : Str) : Setting :=
  match key with
  | .port => .number (atoi (cStr value))
  | .threads => .number (atoi (cStr value))
  | .useSsl => if SwitchesOn value then .flag true else old
  | _ => .text value

/-- The object after one line, `none` if the line ends the reading. -/
def applyLine (m : ConfigurationManager) (line : Str) : Option ConfigurationManager :=
  match parseLine line with
  | .skip => some m
  | .setting key value => m.setOption key value
  | .malformed => none

/-- The lines that are read before one ends the reading. -/
def linesRead (lines : List Str) : List Str :=
  lines.takeWhile fun line => (applyLine .new line).isSome

/-- The setting of a key after the lines, if it was `old` before. -/
def afterLines (key : Key) (old : Setting) (lines : List Str) : Setting :=
  (lines.filterMap (settingOf key)).foldl key.update old

/-! ## Earlier lines -/

/-- The lines without those that assign to the key before a later one does. -/
def dropEarlier (key : Key) : List Str → List Str
  | [] => []
  | line :: lines =>
    if (settingOf key line).isSome ∧ lines.any (fun l => (settingOf key l).isSome) then
      dropEarlier key lines
    else line :: dropEarlier key lines

/-- The file without the lines for the key that a later one replaces. -/
def withoutEarlier (key : Key) (contents : Str) : Str :=
  joinLines (dropEarlier key (rawLines contents))

/-- SSL is off before the file is read, a line of the file switches it on, and the last line for it
    does not. -/
def SwitchesOff (m : ConfigurationManager) (contents : Str) : Prop :=
  m.getSsl = false ∧ (∃ value ∈ settings .useSsl contents, SwitchesOn value) ∧
    ∀ value ∈ (settings .useSsl contents).getLast?, ¬ SwitchesOn value

/-! ## Mistyped values -/

/-- The values that make sense for a key. -/
def Key.Typed (key : Key) (value : Str) : Prop :=
  match key with
  | .port => ∃ n, IsNumeral value n ∧ 1 ≤ n ∧ n ≤ 65535
  | .threads => ∃ n, IsNumeral value n ∧ 1 ≤ n ∧ n < 2 ^ 31
  | .useSsl => strToLower value ∈ [lit "yes", lit "true", lit "no", lit "false"]
  | _ => True

/-- Every value of the file makes sense for its key. -/
def WellTyped (contents : Str) : Prop :=
  ∀ (key : Key), ∀ value ∈ settings key contents, key.Typed value

/-- A blank line, a comment, or a line with one of the keys before its first colon. Nothing is said
    about what follows the colon. -/
def KnownKey (line : Str) : Prop :=
  strTrim line = [] ∨ (strTrim line).headD 0 = 35 ∨
    ∃ (key : Key) (before value : Str), line = before ++ 58 :: value ∧ 58 ∉ before ∧
      strToLower (strLtrim before) = key.name

/-! ## White space -/

/-- Spaces and tabs. -/
structure Blanks where
  /-- The spaces and tabs. -/
  text : Str
  /-- There is nothing else. -/
  blank : ∀ c ∈ text, c = 32 ∨ c = 9

/-- A line before and after a change of its spaces and tabs: at its ends, or around its first
    colon. -/
inductive PaddingEdit where
  /-- A change at the ends of a line. -/
  | ends (lead lead' : Blanks) (text : Str) (trail trail' : Blanks) (line : 10 ∉ text)
  /-- A change around the first colon of a line. -/
  | colon (key : Str) (before before' after after' : Blanks) (rest : Str) (first : 58 ∉ key)
      (line : 10 ∉ key ∧ 10 ∉ rest)

namespace PaddingEdit

/-- The line before the change. -/
def old : PaddingEdit → Str
  | ends lead _ text trail _ _ => lead.text ++ (text ++ trail.text)
  | colon key before _ after _ rest _ _ => (key ++ before.text) ++ 58 :: (after.text ++ rest)

/-- The line after the change. -/
def new : PaddingEdit → Str
  | ends _ lead' text _ trail' _ => lead'.text ++ (text ++ trail'.text)
  | colon key _ before' _ after' rest _ _ => (key ++ before'.text) ++ 58 :: (after'.text ++ rest)

/-- In every file, changing one line so changes nothing. -/
def Insignificant (e : PaddingEdit) : Prop :=
  ∀ (m : ConfigurationManager) (filename contents : Str) (pre post : List Str),
    rawLines contents = pre ++ e.old :: post →
      SameOpen m filename contents (joinLines (pre ++ e.new :: post))

/-- The change puts white space between the name of a key and the colon, or takes it away. -/
def SpacesKey : PaddingEdit → Prop
  | ends .. => False
  | colon text before before' _ _ _ _ _ =>
    (∃ key : Key, strToLower (strLtrim text) = key.name) ∧ ¬ (before.text = [] ↔ before'.text = [])

/-- A line after the changed one ends the reading, and up to there every setting stays as it was
    before the changed line. Only one of the two texts of that line sets anything. -/
def Masked (e : PaddingEdit) (m : ConfigurationManager) (pre post : List Str) : Prop :=
  (∃ line ∈ post, ¬ Accepted line) ∧ ∀ key : Key,
    afterLines key (m.get key) (pre ++ e.old :: e.new :: linesRead post) =
      afterLines key (m.get key) pre

end PaddingEdit

end Ipvshttpd
