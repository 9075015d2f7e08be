/-!
Plain operations on strings, each one an operation on the list of characters it holds.
Positions are never used: a cut is always described by the pieces that it leaves.
-/
namespace Linkage.Text

/-- The pieces before and after the first character that satisfies `p`. -/
def splitFirstWhere? (p : Char → Bool) (s : String) : Option (String × String) :=
  match s.toList.span (fun c => !p c) with
  | (_, []) => none
  | (before, _ :: after) => some (String.ofList before, String.ofList after)

/-- The pieces before and after the first `c`. -/
def splitFirst? (c : Char) (s : String) : Option (String × String) :=
  splitFirstWhere? (· == c) s

/-- The pieces before and after the last `c`. -/
def splitLast? (c : Char) (s : String) : Option (String × String) :=
  match s.toList.reverse.span (· != c) with
  | (_, []) => none
  | (after, _ :: before) => some (String.ofList before.reverse, String.ofList after.reverse)

/-- Cuts a list at every `c`; there is always one piece more than there are cuts. -/
def pieces (c : Char) : List Char → List (List Char)
  | [] => [[]]
  | x :: rest =>
    if x = c then [] :: pieces c rest
    else match pieces c rest with
      | [] => [[x]]
      | first :: others => (x :: first) :: others

def splitAll (c : Char) (s : String) : List String :=
  (pieces c s.toList).map String.ofList

def replaceChar (a b : Char) (s : String) : String :=
  String.ofList (s.toList.map fun c => if c = a then b else c)

/-- What follows `lead`, when the text starts with it. -/
def stripStart? (lead s : String) : Option String :=
  (lead.toList.isPrefixOf? s.toList).map String.ofList

/-- What stands before `tail`, when the text ends with it. -/
def stripEnd? (tail s : String) : Option String :=
  (tail.toList.reverse.isPrefixOf? s.toList.reverse).map fun r => String.ofList r.reverse

def startsWith (lead s : String) : Bool := lead.toList.isPrefixOf s.toList

def endsWith (tail s : String) : Bool := tail.toList.isSuffixOf s.toList

/-- Whether `needle` occurs as a run of consecutive characters. -/
def occursIn (needle : List Char) : List Char → Bool
  | [] => needle.isEmpty
  | c :: rest => needle.isPrefixOf (c :: rest) || occursIn needle rest

def holds (needle s : String) : Bool := occursIn needle.toList s.toList

def holdsChar (c : Char) (s : String) : Bool := s.toList.contains c

/-- Drops characters that satisfy `p` from both ends. -/
def trimWhere (p : Char → Bool) (s : String) : String :=
  String.ofList ((s.toList.dropWhile p).reverse.dropWhile p).reverse

/-- Equality up to the case of the letters A to Z. -/
def sameIgnoringCase (s t : String) : Bool :=
  s.toList.map Char.toLower == t.toList.map Char.toLower

/-- The text in front of the last point, or nothing when there is none. -/
def beforeLastPoint (s : String) : String :=
  match splitLast? '.' s with
  | some (before, _) => before
  | none => ""

/-- Reads a run of decimal digits, at least one. -/
def digits? : List Char → Option Nat
  | [] => none
  | cs => if cs.all Char.isDigit then some (cs.foldl (fun n c => 10 * n + (c.toNat - 48)) 0) else none

/-- A decimal number of at most `limit`, with an optional plus sign in front. -/
def numeral? (limit : Nat) (s : String) : Option Nat :=
  let body := match s.toList with
    | '+' :: rest => rest
    | cs => cs
  (digits? body).filter (· ≤ limit)

/-- Keeps the first occurrence of every element. -/
def distinct {α : Type} [BEq α] : List α → List α
  | [] => []
  | x :: rest => x :: (distinct rest).filter (fun y => !(y == x))

/-- Ascending order of strings by code point. -/
def sortedStrings (xs : List String) : List String := xs.mergeSort (fun a b => decide (a ≤ b))

end Linkage.Text
