import Linkage.Text.Basic
import Linkage.Text.Blank

/-!
Properties text: one `key=value` or `key: value` a line. Blank lines and lines that start with `#`
or `!` say nothing. Keys are unique; a later line replaces the value and keeps the key's place.
-/
namespace Linkage.Text

/-- Puts a value under a key, in the key's old place if it has one. -/
def putProperty (key value : String) : List (String × String) → List (String × String)
  | [] => [(key, value)]
  | (k, v) :: rest =>
    if k = key then (key, value) :: rest else (k, v) :: putProperty key value rest

/-- The key and the value of a line, or nothing for a comment or a blank line. -/
def propertyOf? (line : String) : Option (String × String) :=
  let line := trim line
  if line.isEmpty || startsWith "#" line || startsWith "!" line then none
  else match splitFirstWhere? (fun c => c == '=' || c == ':') line with
    | some (key, value) => some (trim key, trim value)
    | none => some (line, "")

def properties (text : String) : List (String × String) :=
  (lines text).foldl (fun entries line =>
    match propertyOf? line with
    | some (key, value) => putProperty key value entries
    | none => entries) []

end Linkage.Text
