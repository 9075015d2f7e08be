import Linkage.Text.Blank

/-!
How the classes of a program and of its libraries share names: in shared mode a library class
hides a program class of the same name, in isolated mode the two collide.
-/
namespace Linkage

inductive Isolation where
  | shared
  | appIsolated
  deriving Repr, DecidableEq, Inhabited

namespace Isolation

def text : Isolation → String
  | .shared => "shared"
  | .appIsolated => "app-isolated"

/-- Reads a mode; the error is the text that was compared. -/
def read (s : String) : Except String Isolation :=
  let word := Text.trim s
  if word = "shared" then .ok .shared
  else if word = "app-isolated" then .ok .appIsolated
  else .error word

def unknown (word : String) : String :=
  "invalid classloader isolation `" ++ word ++ "` (expected `shared` or `app-isolated`)"

end Isolation

end Linkage
