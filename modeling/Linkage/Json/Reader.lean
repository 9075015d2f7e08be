import Linkage.Json.Basic

/-!
Reading JSON text. Every reader takes the characters that are left and gives back what it read
with the characters after it, or nothing when the text is malformed. A value that nobody asks for
is only skipped: there a `\u` escape may be any four hexadecimal digits, while a string that is
kept must pair its surrogates.
-/
namespace Linkage.Json.Reader

def isSpace (c : Char) : Bool := c == ' ' || c == '\n' || c == '\r' || c == '\t'

def skipSpace (cs : List Char) : List Char := cs.dropWhile isSpace

def hexValue? (c : Char) : Option Nat :=
  let n := c.toNat
  if 48 ≤ n && n ≤ 57 then some (n - 48)
  else if 97 ≤ n && n ≤ 102 then some (n - 87)
  else if 65 ≤ n && n ≤ 70 then some (n - 55)
  else none

def hex4? (a b c d : Char) : Option Nat := do
  let w ← hexValue? a
  let x ← hexValue? b
  let y ← hexValue? c
  let z ← hexValue? d
  pure (((w * 16 + x) * 16 + y) * 16 + z)

def escaped? (c : Char) : Option Char :=
  match c with
  | '"' => some '"'
  | '\\' => some '\\'
  | '/' => some '/'
  | 'b' => some (Char.ofNat 8)
  | 'f' => some (Char.ofNat 12)
  | 'n' => some '\n'
  | 'r' => some '\r'
  | 't' => some '\t'
  | _ => none

/-- The rest of a string after its opening quote. `pending` holds a high surrogate that waits for
its low half. -/
def stringBody : List Char → Option Nat → List Char → Option (String × List Char)
  | '"' :: rest, none, acc => some (String.ofList acc.reverse, rest)
  | '\\' :: 'u' :: a :: b :: c :: d :: rest, pending, acc =>
    match hex4? a b c d, pending with
    | none, _ => none
    | some n, none =>
      if 0xD800 ≤ n ∧ n < 0xDC00 then stringBody rest (some n) acc
      else if 0xDC00 ≤ n ∧ n < 0xE000 then none
      else stringBody rest none (Char.ofNat n :: acc)
    | some n, some high =>
      if 0xDC00 ≤ n ∧ n < 0xE000 then
        stringBody rest none (Char.ofNat ((high - 0xD800) * 1024 + (n - 0xDC00) + 0x10000) :: acc)
      else none
  | '\\' :: e :: rest, none, acc =>
    match escaped? e with
    | some c => stringBody rest none (c :: acc)
    | none => none
  | c :: rest, none, acc => if c.toNat < 32 then none else stringBody rest none (c :: acc)
  | _, _, _ => none

def string (cs : List Char) : Option (String × List Char) :=
  match cs with
  | '"' :: rest => stringBody rest none []
  | _ => none

/-- Passes over a string without keeping it. -/
def skipString : List Char → Option (List Char)
  | '"' :: rest => some rest
  | '\\' :: 'u' :: a :: b :: c :: d :: rest =>
    if (hex4? a b c d).isSome then skipString rest else none
  | '\\' :: e :: rest => if (escaped? e).isSome then skipString rest else none
  | c :: rest => if c.toNat < 32 then none else skipString rest
  | [] => none

/-- At least one digit, and the rest. -/
def digits (cs : List Char) : Option (List Char × List Char) :=
  match cs.takeWhile Char.isDigit with
  | [] => none
  | ds => some (ds, cs.dropWhile Char.isDigit)

/-- The fraction and exponent that may follow the whole part of a number. -/
def numberTail (cs : List Char) : Option (List Char × List Char) := do
  let (fraction, cs) ← match cs with
    | '.' :: rest => (digits rest).map fun (ds, more) => ('.' :: ds, more)
    | _ => some ([], cs)
  let (power, cs) ← match cs with
    | e :: rest =>
      if e = 'e' ∨ e = 'E' then
        match rest with
        | '+' :: more => (digits more).map fun (ds, cs) => (e :: '+' :: ds, cs)
        | '-' :: more => (digits more).map fun (ds, cs) => (e :: '-' :: ds, cs)
        | _ => (digits rest).map fun (ds, cs) => (e :: ds, cs)
      else some ([], cs)
    | [] => some ([], cs)
  pure (fraction ++ power, cs)

def number (cs : List Char) : Option (Json × List Char) := do
  let (negative, body) := match cs with
    | '-' :: rest => (true, rest)
    | _ => (false, cs)
  let (whole, rest) ← digits body
  if whole.head? = some '0' ∧ 1 < whole.length then none
  let (tail, rest) ← numberTail rest
  let n : Int := (whole.foldl (fun n c => 10 * n + (c.toNat - 48)) 0 : Nat)
  if tail.isEmpty then pure (.number (if negative then -n else n), rest)
  else
    let sign := if negative then ['-'] else []
    pure (.real (String.ofList (sign ++ whole ++ tail)), rest)

def word (w : String) (value : Json) (cs : List Char) : Option (Json × List Char) :=
  (w.toList.isPrefixOf? cs).map fun rest => (value, rest)

mutual

/-- A value; the fuel bounds how many values, items and members are still to come. -/
def value : Nat → List Char → Option (Json × List Char)
  | 0, _ => none
  | fuel + 1, cs =>
    match skipSpace cs with
    | '"' :: rest => (stringBody rest none []).map fun (s, rest) => (.string s, rest)
    | '[' :: rest =>
      match skipSpace rest with
      | ']' :: rest => some (.array [], rest)
      | rest => (items fuel rest).map fun (xs, rest) => (.array xs, rest)
    | '\x7b' :: rest =>
      match skipSpace rest with
      | '\x7d' :: rest => some (.object [], rest)
      | rest => (members fuel rest).map fun (fs, rest) => (.object fs, rest)
    | 'n' :: rest => word "ull" .null rest
    | 't' :: rest => word "rue" (.bool true) rest
    | 'f' :: rest => word "alse" (.bool false) rest
    | cs => number cs

def items : Nat → List Char → Option (List Json × List Char)
  | 0, _ => none
  | fuel + 1, cs =>
    match value fuel cs with
    | none => none
    | some (x, rest) =>
      match skipSpace rest with
      | ']' :: rest => some ([x], rest)
      | ',' :: rest => (items fuel rest).map fun (xs, rest) => (x :: xs, rest)
      | _ => none

def members : Nat → List Char → Option (List (String × Json) × List Char)
  | 0, _ => none
  | fuel + 1, cs =>
    match string (skipSpace cs) with
    | none => none
    | some (key, rest) =>
      match skipSpace rest with
      | ':' :: rest =>
        match value fuel rest with
        | none => none
        | some (x, rest) =>
          match skipSpace rest with
          | '\x7d' :: rest => some ([(key, x)], rest)
          | ',' :: rest => (members fuel rest).map fun (fs, rest) => ((key, x) :: fs, rest)
          | _ => none
      | _ => none

end

mutual

/-- Passes over a value without keeping it. -/
def skip : Nat → List Char → Option (List Char)
  | 0, _ => none
  | fuel + 1, cs =>
    match skipSpace cs with
    | '"' :: rest => skipString rest
    | '[' :: rest =>
      match skipSpace rest with
      | ']' :: rest => some rest
      | rest => skipItems fuel rest
    | '\x7b' :: rest =>
      match skipSpace rest with
      | '\x7d' :: rest => some rest
      | rest => skipMembers fuel rest
    | 'n' :: rest => "ull".toList.isPrefixOf? rest
    | 't' :: rest => "rue".toList.isPrefixOf? rest
    | 'f' :: rest => "alse".toList.isPrefixOf? rest
    | cs => (number cs).map (·.2)

def skipItems : Nat → List Char → Option (List Char)
  | 0, _ => none
  | fuel + 1, cs =>
    match skip fuel cs with
    | none => none
    | some rest =>
      match skipSpace rest with
      | ']' :: rest => some rest
      | ',' :: rest => skipItems fuel rest
      | _ => none

def skipMembers : Nat → List Char → Option (List Char)
  | 0, _ => none
  | fuel + 1, cs =>
    match skipSpace cs with
    | '"' :: rest =>
      match (skipString rest).map skipSpace with
      | some (':' :: rest) =>
        match (skip fuel rest).map skipSpace with
        | some ('\x7d' :: rest) => some rest
        | some (',' :: rest) => skipMembers fuel rest
        | _ => none
      | _ => none
    | _ => none

end

/-- Fuel that no text of this length can use up. -/
def fuelFor (cs : List Char) : Nat := 2 * cs.length + 4

end Linkage.Json.Reader

namespace Linkage

/-- Reads a text that holds one value and nothing else but space. -/
def Json.read? (text : String) : Option Json :=
  let cs := text.toList
  match Json.Reader.value (Json.Reader.fuelFor cs) cs with
  | some (v, rest) => if (Json.Reader.skipSpace rest).isEmpty then some v else none
  | none => none

end Linkage
