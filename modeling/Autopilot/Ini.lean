/-
  Configuration files of headed sections.

  A file is read line by line. A line is trimmed; one that starts with a comment sign
  is passed over, and otherwise everything from the first comment sign on is cut. A
  line that starts with a bracket opens the section named up to its last closing
  bracket. Any other line belongs to the section that is open, at first `default`: a
  key, and behind the first equals sign or colon its value. A key may stand without a
  value. Keys and values are trimmed, a repeated key replaces the earlier one and a
  repeated section is continued. Names are case-sensitive.
-/
import Autopilot.Fault
import Autopilot.NameMap
import Autopilot.Text.Blank
import Autopilot.Text.Lowercase

namespace Autopilot

/-- The keys of a section, with their values if they have any. -/
abbrev IniSection := NameMap (Option String)

/-- A configuration file. -/
structure Ini where
  sections : NameMap IniSection
  deriving DecidableEq

namespace Ini

/-! ## Look-ups -/

/-- The value of a key, if the section has the key and the key has a value. -/
def value? (ini : Ini) (heading key : String) : Option String :=
  ((ini.sections.find? heading).bind (·.find? key)).join

/-- The value of a key, or the empty text. -/
def valueD (ini : Ini) (heading key : String) : String :=
  (ini.value? heading key).getD ""

/-- The value of a key as a signed number; the default stands for an absent or other value. -/
def int (ini : Ini) (heading key : String) (default : Int) : Int :=
  ((ini.value? heading key).bind Text.signed64?).getD default

/-- What a word says as a flag. -/
def flag? (s : String) : Option Bool :=
  let lower := Text.lowercase s
  if lower = "true" ∨ lower = "yes" ∨ lower = "1" then some true
  else if lower = "false" ∨ lower = "no" ∨ lower = "0" then some false
  else none

/-- The value of a key as a flag; the default stands for an absent or other value. -/
def bool (ini : Ini) (heading key : String) (default : Bool) : Bool :=
  ((ini.value? heading key).bind flag?).getD default

/-- The headings in increasing order. -/
def headings (ini : Ini) : List String :=
  ini.sections.keys

/-- The keys of a section in increasing order; an absent section has none. -/
def keys (ini : Ini) (heading : String) : List String :=
  match ini.sections.find? heading with
  | some entries => entries.keys
  | none => []

/-! ## Reading -/

/-- The signs that start a comment. -/
def isCommentSign (c : Char) : Bool :=
  c == ';' || c == '#'

/-- The sign between a key and its value. -/
def isDelimiter (c : Char) : Bool :=
  c == '=' || c == ':'

/-- What a line of a file says. -/
inductive Line where
  | nothing
  | heading (name : String)
  | entry (key : String) (value : Option String)

/-- The name between the opening bracket, already passed, and the last closing one. -/
def headingName? (cs : List Char) : Option String :=
  match cs.reverse.dropWhile (· != ']') with
  | [] => none
  | _ :: inside => some (String.ofList (Text.trimChars inside.reverse))

/-- What a line without blanks at its ends and without comment says. -/
def Line.ofContent (number : Nat) (cs : List Char) : Except IniDefect Line :=
  match cs with
  | [] => .ok .nothing
  | '[' :: inside =>
    match headingName? inside with
    | some name => .ok (.heading name)
    | none => .error (.unclosedHeading number)
  | _ =>
    match cs.span (fun c => !isDelimiter c) with
    | (key, []) => .ok (.entry (String.ofList (Text.trimChars key)) none)
    | (key, _ :: value) =>
      match Text.trimChars key with
      | [] => .error (.emptyKey number)
      | name => .ok (.entry (String.ofList name) (some (String.ofList (Text.trimChars value))))

/-- What a line says; lines are numbered from one. -/
def Line.read (number : Nat) (cs : List Char) : Except IniDefect Line :=
  Line.ofContent number (Text.trimChars ((Text.trimChars cs).takeWhile fun c => !isCommentSign c))

/-- A file with the section that is open. -/
structure Progress where
  ini : Ini
  heading : String

/-- Opens a section, which may be there already. -/
def openSection (ini : Ini) (heading : String) : Ini :=
  match ini.sections.find? heading with
  | some _ => ini
  | none => ⟨ini.sections.insert heading NameMap.empty⟩

/-- Files an entry in a section, which is opened if it is not there. -/
def file (ini : Ini) (heading key : String) (value : Option String) : Ini :=
  let entries := (ini.sections.find? heading).getD NameMap.empty
  ⟨ini.sections.insert heading (entries.insert key value)⟩

/-- Takes in one line. -/
def Progress.add (p : Progress) : Line → Progress
  | .nothing => p
  | .heading name => ⟨openSection p.ini name, name⟩
  | .entry key value => ⟨file p.ini p.heading key value, p.heading⟩

/-- Takes in lines, the first of which has the given number. -/
def Progress.addLines (p : Progress) (number : Nat) : List (List Char) → Except IniDefect Progress
  | [] => .ok p
  | line :: rest =>
    match Line.read number line with
    | .error defect => .error defect
    | .ok content => (p.add content).addLines (number + 1) rest

/-- The file without sections. -/
def empty : Ini := ⟨NameMap.empty⟩

/-- Reads a configuration file. -/
def read (s : String) : Except IniDefect Ini :=
  (Progress.addLines ⟨empty, "default"⟩ 1 (s.toList.splitOn '\n')).map (·.ini)

end Ini

end Autopilot
