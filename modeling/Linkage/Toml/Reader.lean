import Linkage.Toml.Basic

/-!
Reading TOML keys and values. Every reader takes the characters that are left and returns what it
read with the characters after it, or nothing when the text is malformed.
-/
namespace Linkage.Toml.Reader

def isSpace (c : Char) : Bool := c == ' ' || c == '\t'

def skipSpace (cs : List Char) : List Char := cs.dropWhile isSpace

/-- A character of a comment or a literal string. -/
def isPlain (c : Char) : Bool := !isControl c

/-- What follows a line end. -/
def newline? : List Char → Option (List Char)
  | '\n' :: rest => some rest
  | '\r' :: '\n' :: rest => some rest
  | _ => none

/-- Blanks, a comment and the end of the line or of the text. -/
def lineEnd (cs : List Char) : Option (List Char) :=
  let rest := match skipSpace cs with
    | '#' :: more => more.dropWhile isPlain
    | more => more
  if rest.isEmpty then some [] else newline? rest

/-- Skips blanks, line ends and comments; the flag says whether a comment is being skipped. -/
def skipFiller : Bool → List Char → List Char
  | _, [] => []
  | inComment, c :: rest =>
    if c = '\n' then skipFiller false rest
    else if c = '\r' then
      match rest with
      | '\n' :: more => skipFiller false more
      | _ => c :: rest
    else if inComment then (if isPlain c then skipFiller true rest else c :: rest)
    else if c = '#' then skipFiller true rest
    else if isSpace c then skipFiller false rest
    else c :: rest

def hexValue? (c : Char) : Option Nat :=
  if c.isDigit then some (c.toNat - 48)
  else if 'a' ≤ c ∧ c ≤ 'f' then some (c.toNat - 87)
  else if 'A' ≤ c ∧ c ≤ 'F' then some (c.toNat - 55)
  else none

/-- The character with the code that hexadecimal digits give. -/
def codePoint? (digits : List Char) : Option Char := do
  let values ← digits.mapM hexValue?
  let n := values.foldl (fun n d => 16 * n + d) 0
  if n < 0xD800 ∨ (0xDFFF < n ∧ n < 0x110000) then some (Char.ofNat n) else none

/-- The character that a letter stands for after a backslash. -/
def escaped? (c : Char) : Option Char :=
  if c = 'b' then some (Char.ofNat 8)
  else if c = 't' then some '\t'
  else if c = 'n' then some '\n'
  else if c = 'f' then some (Char.ofNat 12)
  else if c = 'r' then some '\r'
  else if c = '"' then some '"'
  else if c = '\\' then some '\\'
  else none

/-- The rest of a quoted string; what was read so far stands in reverse. -/
def basicBody : List Char → List Char → Option (String × List Char)
  | _, [] => none
  | acc, '"' :: rest => some (String.ofList acc.reverse, rest)
  | acc, '\\' :: 'u' :: a :: b :: c :: d :: rest => do
    let x ← codePoint? [a, b, c, d]
    basicBody (x :: acc) rest
  | acc, '\\' :: 'U' :: a :: b :: c :: d :: e :: f :: g :: h :: rest => do
    let x ← codePoint? [a, b, c, d, e, f, g, h]
    basicBody (x :: acc) rest
  | acc, '\\' :: c :: rest => do
    let x ← escaped? c
    basicBody (x :: acc) rest
  | acc, c :: rest => if isPlain c then basicBody (c :: acc) rest else none

/-- Up to two quotes that stand right before the closing quotes belong to the string. -/
def closing (quote : Char) (acc rest : List Char) : String × List Char :=
  match rest with
  | a :: b :: more =>
    if a = quote ∧ b = quote then (String.ofList (b :: a :: acc).reverse, more)
    else if a = quote then (String.ofList (a :: acc).reverse, b :: more)
    else (String.ofList acc.reverse, rest)
  | [a] => if a = quote then (String.ofList (a :: acc).reverse, []) else (String.ofList acc.reverse, rest)
  | [] => (String.ofList acc.reverse, [])

/-- Where a quoted string over several lines stands: in its text, between a backslash and the
line end that it hides, or in the blanks after such a line end. -/
inductive Position where
  | text
  | hiding
  | trimming
  deriving DecidableEq

/-- The rest of a quoted string over several lines. -/
def multiBasicBody : Position → List Char → List Char → Option (String × List Char)
  | _, _, [] => none
  | .hiding, acc, '\r' :: '\n' :: rest => multiBasicBody .trimming acc rest
  | .hiding, acc, c :: rest =>
    if isSpace c then multiBasicBody .hiding acc rest
    else if c = '\n' then multiBasicBody .trimming acc rest
    else none
  | place, acc, '\r' :: '\n' :: rest =>
    if place = .trimming then multiBasicBody .trimming acc rest
    else multiBasicBody .text ('\n' :: acc) rest
  | _, acc, '"' :: '"' :: '"' :: rest => some (closing '"' acc rest)
  | _, acc, '\\' :: 'u' :: a :: b :: c :: d :: rest => do
    let x ← codePoint? [a, b, c, d]
    multiBasicBody .text (x :: acc) rest
  | _, acc, '\\' :: 'U' :: a :: b :: c :: d :: e :: f :: g :: h :: rest => do
    let x ← codePoint? [a, b, c, d, e, f, g, h]
    multiBasicBody .text (x :: acc) rest
  | _, acc, '\\' :: '\r' :: '\n' :: rest => multiBasicBody .trimming acc rest
  | _, acc, '\\' :: c :: rest =>
    if isSpace c then multiBasicBody .hiding acc rest
    else if c = '\n' then multiBasicBody .trimming acc rest
    else match escaped? c with
      | some x => multiBasicBody .text (x :: acc) rest
      | none => none
  | place, acc, c :: rest =>
    if place = .trimming ∧ (isSpace c ∨ c = '\n') then multiBasicBody .trimming acc rest
    else if c = '\n' ∨ isPlain c then multiBasicBody .text (c :: acc) rest
    else none

/-- The rest of a literal string over several lines. -/
def multiLiteralBody : List Char → List Char → Option (String × List Char)
  | _, [] => none
  | acc, '\'' :: '\'' :: '\'' :: rest => some (closing '\'' acc rest)
  | acc, '\r' :: '\n' :: rest => multiLiteralBody ('\n' :: acc) rest
  | acc, c :: rest => if c = '\n' ∨ isPlain c then multiLiteralBody (c :: acc) rest else none

/-- The rest of a literal string. -/
def literalBody (cs : List Char) : Option (String × List Char) :=
  match cs.span (fun c => c != '\'' && isPlain c) with
  | (body, '\'' :: rest) => some (String.ofList body, rest)
  | _ => none

/-- The line end right after the opening quotes does not count. -/
def afterOpening (cs : List Char) : List Char := (newline? cs).getD cs

def string (cs : List Char) : Option (String × List Char) :=
  match cs with
  | '"' :: '"' :: '"' :: rest => multiBasicBody .text [] (afterOpening rest)
  | '"' :: rest => basicBody [] rest
  | '\'' :: '\'' :: '\'' :: rest => multiLiteralBody [] (afterOpening rest)
  | '\'' :: rest => literalBody rest
  | _ => none

/-- One part of a key: bare, quoted or literal. -/
def simpleKey (cs : List Char) : Option (String × List Char) :=
  match cs with
  | '"' :: rest => basicBody [] rest
  | '\'' :: rest => literalBody rest
  | _ =>
    match cs.span isBare with
    | ([], _) => none
    | (name, rest) => some (String.ofList name, rest)

/-- More parts than this make a key malformed. -/
def maxDepth : Nat := 80

/-- The parts of a key, with points between them and blanks around them. -/
def keyParts : Nat → List Char → Option (List String × List Char)
  | 0, _ => none
  | fuel + 1, cs => do
    let (part, rest) ← simpleKey (skipSpace cs)
    match skipSpace rest with
    | '.' :: more => do
      let (parts, rest) ← keyParts fuel more
      pure (part :: parts, rest)
    | rest => pure ([part], rest)

def key (cs : List Char) : Option (List String × List Char) := keyParts (maxDepth - 1) cs

/-- A run of digits; a single underscore may stand between two of them and is dropped. -/
def digitRun (p : Char → Bool) : List Char → Option (List Char × List Char)
  | [] => none
  | c :: rest =>
    if !p c then none
    else match rest with
      | '_' :: more => (digitRun p more).map fun (ds, after) => (c :: ds, after)
      | d :: more =>
        if p d then (digitRun p (d :: more)).map fun (ds, after) => (c :: ds, after)
        else some ([c], d :: more)
      | [] => some ([c], [])

/-- The digits of a decimal integer, without a zero in front of others. -/
def wholeDigits (cs : List Char) : Option (List Char × List Char) :=
  match cs with
  | '0' :: rest => some (['0'], rest)
  | _ => digitRun Char.isDigit cs

def signOf (cs : List Char) : List Char × List Char :=
  match cs with
  | '-' :: rest => (['-'], rest)
  | '+' :: rest => ([], rest)
  | _ => ([], cs)

/-- An optional exponent. -/
def exponent (cs : List Char) : Option (List Char × List Char) :=
  match cs with
  | c :: rest =>
    if c = 'e' ∨ c = 'E' then do
      let (sign, rest) := signOf rest
      let (ds, rest) ← digitRun Char.isDigit rest
      pure ('e' :: sign ++ ds, rest)
    else some ([], cs)
  | [] => some ([], [])

/-- Whether a number of 64 bits holds an integer. -/
def isWord (n : Int) : Bool := fitsBits 64 n

def radixInteger (base : Nat) (cs : List Char) : Option (Toml × List Char) := do
  let (ds, rest) ← digitRun (fun c => (hexValue? c).any (· < base)) cs
  let n := (ds.filterMap hexValue?).foldl (fun n d => base * n + d) 0
  if isWord n then some (.integer n, rest) else none

/-- An integer or a float. A float that is too great for its width is malformed. -/
def number (cs : List Char) : Option (Toml × List Char) := do
  let (sign, body) := signOf cs
  let (whole, rest) ← wholeDigits body
  let (fraction, rest) ← match rest with
    | '.' :: more => (digitRun Char.isDigit more).map fun (ds, after) => ('.' :: ds, after)
    | _ => some ([], rest)
  let (power, rest) ← exponent rest
  if fraction.isEmpty && power.isEmpty then
    let n : Int := (Text.digits? whole).getD 0
    let n := if sign.isEmpty then n else -n
    if isWord n then some (.integer n, rest) else none
  else
    let x ← Binary.read? .double (String.ofList (sign ++ whole ++ fraction ++ power))
    if x = .infinite false then none else some (.float x, rest)

/-- `inf` and `nan` with an optional sign. -/
def specialFloat (cs : List Char) : Option (Toml × List Char) :=
  match signOf cs with
  | (sign, 'i' :: 'n' :: 'f' :: rest) => some (.float (.infinite (!sign.isEmpty)), rest)
  | (_, 'n' :: 'a' :: 'n' :: rest) => some (.float .nan, rest)
  | _ => none

/-- A number of exactly two digits within bounds, as written. -/
def twoDigits (low high : Nat) (cs : List Char) : Option (List Char × List Char) :=
  match cs with
  | a :: b :: rest =>
    match Text.digits? [a, b] with
    | some n => if low ≤ n ∧ n ≤ high then some ([a, b], rest) else none
    | none => none
  | _ => none

def expect (c : Char) (cs : List Char) : Option (List Char) :=
  match cs with
  | d :: rest => if d = c then some rest else none
  | [] => none

def daysIn (year month : Nat) : Nat :=
  let isLeap := year % 4 = 0 ∧ (year % 100 ≠ 0 ∨ year % 400 = 0)
  if month = 2 then (if isLeap then 29 else 28)
  else if month ∈ [4, 6, 9, 11] then 30
  else 31

def fullDate (cs : List Char) : Option (List Char × List Char) := do
  let year := cs.take 4
  let y ← if year.length = 4 then Text.digits? year else none
  let rest ← expect '-' (cs.drop 4)
  let (month, rest) ← twoDigits 1 12 rest
  let rest ← expect '-' rest
  let (day, rest) ← twoDigits 1 (daysIn y ((Text.digits? month).getD 0)) rest
  pure (year ++ '-' :: month ++ '-' :: day, rest)

/-- Fractions of a second down to the ninth digit, without zeros at the end. -/
def secondFraction (cs : List Char) : List Char × List Char :=
  match cs with
  | '.' :: rest =>
    let ds := rest.takeWhile Char.isDigit
    let kept := ((ds.take 9).reverse.dropWhile (· == '0')).reverse
    if ds.isEmpty then ([], cs)
    else (if kept.isEmpty then [] else '.' :: kept, rest.dropWhile Char.isDigit)
  | _ => ([], cs)

/-- The greatest hour of a time, and the greatest hour and minute of an offset. -/
structure DateLimits where
  hour : Nat
  offsetHour : Nat
  offsetMinute : Nat

def clockTime (limits : DateLimits) (cs : List Char) : Option (List Char × List Char) := do
  let (hour, rest) ← twoDigits 0 limits.hour cs
  let rest ← expect ':' rest
  let (minute, rest) ← twoDigits 0 59 rest
  let rest ← expect ':' rest
  let (second, rest) ← twoDigits 0 60 rest
  let (fraction, rest) := secondFraction rest
  pure (hour ++ ':' :: minute ++ ':' :: second ++ fraction, rest)

/-- A number below a hundred with two digits. -/
def padded (n : Nat) : List Char := [Char.ofNat (48 + n / 10), Char.ofNat (48 + n % 10)]

/-- An optional offset of at most a day; one of zero has a plus sign. -/
def offset (limits : DateLimits) (cs : List Char) : Option (List Char × List Char) :=
  match cs with
  | 'Z' :: rest => some (['Z'], rest)
  | 'z' :: rest => some (['Z'], rest)
  | c :: rest =>
    if c = '+' ∨ c = '-' then do
      let (hours, rest) ← twoDigits 0 limits.offsetHour rest
      let rest ← expect ':' rest
      let (minutes, rest) ← twoDigits 0 limits.offsetMinute rest
      let all := 60 * (Text.digits? hours).getD 0 + (Text.digits? minutes).getD 0
      if 24 * 60 < all then none
      else
        let sign := if all = 0 then '+' else c
        pure (sign :: padded (all / 60) ++ ':' :: padded (all % 60), rest)
    else some ([], cs)
  | [] => some ([], [])

def datetimeOf (text : List Char) : Toml := .datetime (String.ofList text)

/-- A date, alone or with a time and an offset. -/
def dated (limits : DateLimits) (cs : List Char) : Option (Toml × List Char) := do
  let (date, rest) ← fullDate cs
  match rest with
  | c :: more =>
    if c = 'T' ∨ c = 't' ∨ c = ' ' then
      match clockTime limits more with
      | some (time, after) => do
        let (zone, after) ← offset limits after
        pure (datetimeOf (date ++ 'T' :: time ++ zone), after)
      | none => pure (datetimeOf date, rest)
    else pure (datetimeOf date, rest)
  | [] => pure (datetimeOf date, [])

/-- A time alone. -/
def timed (limits : DateLimits) (cs : List Char) : Option (Toml × List Char) :=
  (clockTime limits cs).map fun (time, rest) => (datetimeOf time, rest)

/-- The limits for a date or time that stands for itself. -/
def plainDate : DateLimits := ⟨23, 23, 59⟩

/-- The limits for a date or time in the string of a marked table. -/
def markedDate : DateLimits := ⟨24, 99, 99⟩

/-- A date or time that is the whole of a string. -/
def marked? (s : String) : Option Toml :=
  let read := match s.toList with
    | a :: b :: ':' :: rest => timed markedDate (a :: b :: ':' :: rest)
    | cs => dated markedDate cs
  match read with
  | some (t, []) => some t
  | _ => none

/-- A value that starts with a digit or a sign. -/
def numeric (cs : List Char) : Option (Toml × List Char) :=
  let run := cs.takeWhile Char.isDigit
  match run.length, cs.drop run.length with
  | 4, '-' :: _ => dated plainDate cs
  | 2, ':' :: _ => timed plainDate cs
  | _, _ =>
    match cs with
    | '0' :: 'x' :: rest => radixInteger 16 rest
    | '0' :: 'o' :: rest => radixInteger 8 rest
    | '0' :: 'b' :: rest => radixInteger 2 rest
    | _ => specialFloat cs <|> number cs

/-- What follows a word, when the text starts with it. -/
def word (w : String) (t : Toml) (cs : List Char) : Option (Toml × List Char) :=
  (w.toList.isPrefixOf? cs).map fun rest => (t, rest)

end Linkage.Toml.Reader
