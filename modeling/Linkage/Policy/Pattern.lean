import Linkage.Text.Basic
import Linkage.Text.Blank

/-!
Patterns over targets. A pattern with a star at its end covers what starts with it, one with a
number sign covers just that target, and any other names a class and covers all its members.
-/
namespace Linkage.Policy

inductive Pattern where
  | leading (start : String)
  | exact (target : String)
  | owner (name : String)
  deriving Repr, DecidableEq, Inhabited

namespace Pattern

def text : Pattern → String
  | .leading start => start ++ "*"
  | .exact target => target
  | .owner name => name

/-- Reads a pattern; a blank text is none. -/
def read? (raw : String) : Option Pattern :=
  let text := Text.trim raw
  if text.isEmpty then none
  else match Text.stripEnd? "*" text with
    | some start => some (.leading start)
    | none => some (if Text.holdsChar '#' text then .exact text else .owner text)

def covers (p : Pattern) (target : String) : Bool :=
  match p with
  | .leading start => Text.startsWith start target
  | .exact t => target == t
  | .owner name =>
    target == name || ((Text.stripStart? name target).map (Text.startsWith "#")).getD false

/-- The patterns that a list states, in its order. -/
def readAll (raw : List String) : List Pattern := raw.filterMap read?

def firstCovering? (patterns : List Pattern) (target : String) : Option Pattern :=
  patterns.find? (·.covers target)

/-- Whether a pattern of a list covers a target. -/
def anyCovers (raw : List String) (target : String) : Bool :=
  (firstCovering? (readAll raw) target).isSome

end Pattern

end Linkage.Policy
