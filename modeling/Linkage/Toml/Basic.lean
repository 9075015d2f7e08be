import Linkage.Number.Decimal
import Linkage.Text.Basic

/-!
TOML values and their written form. A string is written in the first of four quotations that need
no escape for it; where none does, it is escaped.
-/
namespace Linkage

/-- A TOML value. A date or time is kept in its normal form. -/
inductive Toml where
  | string (value : String)
  | integer (value : Int)
  | float (value : Binary)
  | boolean (value : Bool)
  | datetime (text : String)
  | array (items : List Toml)
  | table (entries : List (String × Toml))
  deriving Repr, Inhabited

namespace Toml

def get? (t : Toml) (key : String) : Option Toml :=
  match t with
  | .table entries => (entries.find? (·.1 == key)).map (·.2)
  | _ => none

/-- A character that may stand in a key without quotes. -/
def isBare (c : Char) : Bool := c.isAlphanum || c == '_' || c == '-'

/-- A character that must be escaped wherever it stands. -/
def isControl (c : Char) : Bool := (c.toNat < 32 && c != '\t') || c.toNat == 127

def upperHex (n : Nat) : Char := if n < 10 then Char.ofNat (48 + n) else Char.ofNat (55 + n)

/-- A character other than a quotation mark inside a string that is escaped; one over several lines
keeps its line feeds. -/
def escape (isMultiline : Bool) (c : Char) : List Char :=
  if c = '\n' then (if isMultiline then ['\n'] else ['\\', 'n'])
  else if c.toNat = 8 then ['\\', 'b']
  else if c = '\t' then ['\\', 't']
  else if c.toNat = 12 then ['\\', 'f']
  else if c = '\r' then ['\\', 'r']
  else if c = '\\' then ['\\', '\\']
  else if isControl c then
    ['\\', 'u', '0', '0', upperHex (c.toNat / 16), upperHex (c.toNat % 16)]
  else [c]

/-- Escapes a string. Over several lines two quotation marks in a row stand for themselves, and the
one after them is escaped; `run` counts those that were just written. -/
def escapeAll (isMultiline : Bool) : (run : Nat) → List Char → List Char
  | _, [] => []
  | run, c :: rest =>
    if c = '"' then
      if isMultiline && run < 2 then '"' :: escapeAll isMultiline (run + 1) rest
      else '\\' :: '"' :: escapeAll isMultiline 0 rest
    else escape isMultiline c ++ escapeAll isMultiline 0 rest

/-- The length of the longest run of a character. -/
def longestRun (c : Char) (cs : List Char) : Nat :=
  (cs.foldl (fun (longest, run) d => if d = c then (max longest (run + 1), run + 1) else (longest, 0))
    (0, 0)).1

/-- The ways to quote a string. -/
inductive Quotation where
  | basic
  | literal
  | multiBasic
  | multiLiteral
  deriving Repr, DecidableEq, Inhabited

namespace Quotation

/-- Whether a string can be quoted so without an escape; a tab, which `escape` writes as one, does
not count. -/
def suits (cs : List Char) (q : Quotation) : Bool :=
  cs.all (fun c => c == '\n' || !isControl c) &&
    match q with
    | .basic => !cs.contains '\n' && !cs.contains '\\' && !cs.contains '"'
    | .literal => !cs.contains '\n' && !cs.contains '\''
    | .multiBasic => !cs.contains '\\' && longestRun '"' cs < 3
    | .multiLiteral => longestRun '\'' cs < 3

def surround (mark : String) (body : List Char) : String := mark ++ String.ofList body ++ mark

/-- Text with a line feed starts on a line of its own. -/
def onOwnLine (cs body : List Char) : List Char := if cs.contains '\n' then '\n' :: body else body

def write (cs : List Char) : Quotation → String
  | .basic => surround "\"" (escapeAll false 0 cs)
  | .literal => surround "'" cs
  | .multiBasic => surround "\"\"\"" (onOwnLine cs (escapeAll true 0 cs))
  | .multiLiteral => surround "'''" (onOwnLine cs cs)

end Quotation

def quoteString (s : String) : String :=
  let cs := s.toList
  let last : Quotation := if cs.contains '\n' then .multiBasic else .basic
  (([.basic, .literal, .multiBasic, .multiLiteral].find? (Quotation.suits cs)).getD last).write cs

/-- A key stands bare where it can, else quoted on one line. -/
def quoteKey (s : String) : String :=
  let cs := s.toList
  if !cs.isEmpty && cs.all isBare then s
  else (([.basic, .literal].find? (Quotation.suits cs)).getD .basic).write cs

/-- An integral float keeps a fraction of zero. -/
def floatText (x : Binary) : String :=
  match x with
  | .nan => "nan"
  | _ => if x.toInt?.isSome then x.text .double ++ ".0" else x.text .double

def inBraces (fields : List String) : String :=
  if fields.isEmpty then "\x7b\x7d" else "\x7b " ++ String.intercalate ", " fields ++ " \x7d"

mutual

/-- A value as it stands inside another. -/
def inner : Toml → String
  | .string s => quoteString s
  | .integer n => toString n
  | .float x => floatText x
  | .boolean b => toString b
  | .datetime text => text
  | .array items => "[" ++ String.intercalate ", " (innerItems items) ++ "]"
  | .table entries => inBraces (innerEntries entries)

def innerItems : List Toml → List String
  | [] => []
  | t :: rest => inner t :: innerItems rest

def innerEntries : List (String × Toml) → List String
  | [] => []
  | (k, t) :: rest => (quoteKey k ++ " = " ++ inner t) :: innerEntries rest

end

/-- The key that marks a table as a date or time. -/
def dateMarker : String := "$__toml_private_datetime"

/-- A value that stands alone; a date or time is then written as a table with one marked key. -/
def text : Toml → String
  | .datetime s => inBraces [quoteKey dateMarker ++ " = " ++ quoteString s]
  | t => inner t

end Toml

end Linkage
