/-!
JSON values and their two written forms: compact, and indented by two spaces with one member a
line. Members of an object keep the order in which they were put in. A string is escaped only
where JSON demands it, so that text outside ASCII stands as it is.
-/
namespace Linkage

/-- A JSON value. A number that is not written as a plain integer is kept as it was written. -/
inductive Json where
  | null
  | bool (value : Bool)
  | number (value : Int)
  | real (written : String)
  | string (value : String)
  | array (items : List Json)
  | object (fields : List (String × Json))
  deriving Repr, Inhabited

namespace Json

def ofOption {α : Type} (f : α → Json) : Option α → Json
  | some a => f a
  | none => .null

def ofNat (n : Nat) : Json := .number n

def ofString? (s : Option String) : Json := ofOption .string s

def strings (xs : List String) : Json := .array (xs.map .string)

def list {α : Type} (f : α → Json) (xs : List α) : Json := .array (xs.map f)

/-- A member of an object; a missing member reads as null. -/
def get (j : Json) (key : String) : Json :=
  match j with
  | .object fields => ((fields.find? fun f => f.1 == key).map (·.2)).getD .null
  | _ => .null

def asString? : Json → Option String
  | .string s => some s
  | _ => none

def asBool? : Json → Option Bool
  | .bool b => some b
  | _ => none

def asNat? : Json → Option Nat
  | .number n => if 0 ≤ n then some n.toNat else none
  | _ => none

def asList : Json → List Json
  | .array items => items
  | _ => []

def isNull : Json → Bool
  | .null => true
  | _ => false

def asStrings (j : Json) : List String := j.asList.filterMap asString?

def hexDigit (n : Nat) : Char := if n < 10 then Char.ofNat (48 + n) else Char.ofNat (87 + n)

/-- A character as it stands inside a quoted string. -/
def escapeChar (c : Char) : List Char :=
  if c = '"' then ['\\', '"']
  else if c = '\\' then ['\\', '\\']
  else if c = '\n' then ['\\', 'n']
  else if c = '\r' then ['\\', 'r']
  else if c = '\t' then ['\\', 't']
  else if c.toNat = 8 then ['\\', 'b']
  else if c.toNat = 12 then ['\\', 'f']
  else if c.toNat < 32 then
    ['\\', 'u', '0', '0', hexDigit (c.toNat / 16), hexDigit (c.toNat % 16)]
  else [c]

def quote (s : String) : String :=
  "\"" ++ String.ofList (s.toList.flatMap escapeChar) ++ "\""

mutual

def compact : Json → String
  | .null => "null"
  | .bool true => "true"
  | .bool false => "false"
  | .number n => toString n
  | .real s => s
  | .string s => quote s
  | .array items => "[" ++ compactItems items ++ "]"
  | .object fields => "\x7b" ++ compactFields fields ++ "\x7d"

def compactItems : List Json → String
  | [] => ""
  | [x] => compact x
  | x :: rest => compact x ++ "," ++ compactItems rest

def compactFields : List (String × Json) → String
  | [] => ""
  | [(k, v)] => quote k ++ ":" ++ compact v
  | (k, v) :: rest => quote k ++ ":" ++ compact v ++ "," ++ compactFields rest

end

def indentation (depth : Nat) : String := String.ofList (List.replicate (2 * depth) ' ')

mutual

/-- The indented form of a value that stands at the given depth. -/
def prettyAt (depth : Nat) : Json → String
  | .array [] => "[]"
  | .object [] => "\x7b\x7d"
  | .array items => "[\n" ++ prettyItems (depth + 1) items ++ "\n" ++ indentation depth ++ "]"
  | .object fields =>
    "\x7b\n" ++ prettyFields (depth + 1) fields ++ "\n" ++ indentation depth ++ "\x7d"
  | .null => "null"
  | .bool true => "true"
  | .bool false => "false"
  | .number n => toString n
  | .real s => s
  | .string s => quote s

def prettyItems (depth : Nat) : List Json → String
  | [] => ""
  | [x] => indentation depth ++ prettyAt depth x
  | x :: rest => indentation depth ++ prettyAt depth x ++ ",\n" ++ prettyItems depth rest

def prettyFields (depth : Nat) : List (String × Json) → String
  | [] => ""
  | [(k, v)] => indentation depth ++ quote k ++ ": " ++ prettyAt depth v
  | (k, v) :: rest =>
    indentation depth ++ quote k ++ ": " ++ prettyAt depth v ++ ",\n" ++ prettyFields depth rest

end

def pretty (j : Json) : String := prettyAt 0 j

end Json

end Linkage
