import Linkage.Toml.Reader

/-!
Putting TOML tables together. A table is written down once: by a header, by dotted keys, or in
braces. A header may still fill in a table that only came about on the way to another one, and
dotted keys may only extend what dotted keys made. The entries of a table stand in the order in
which they were written; `settle?` puts them in the order of their keys.
-/
namespace Linkage.Toml

/-- What a key leads to while a document is being read. A table is implicit when no header has
named it, and dotted when dotted keys made it. -/
inductive Item where
  | value (t : Toml)
  | table (isImplicit isDotted : Bool) (entries : List (String × Item))
  | tables (all : List (List (String × Item)))
  deriving Inhabited

abbrev Entries := List (String × Item)

namespace Item

mutual

def toToml : Item → Toml
  | .value t => t
  | .table _ _ entries => .table (toEntries entries)
  | .tables all => .array (toTables all)

def toEntries : List (String × Item) → List (String × Toml)
  | [] => []
  | (k, item) :: rest => (k, toToml item) :: toEntries rest

def toTables : List (List (String × Item)) → List Toml
  | [] => []
  | entries :: rest => .table (toEntries entries) :: toTables rest

end

end Item

namespace Entries

def at? (es : Entries) (key : String) : Option Item := (List.find? (·.1 == key) es).map (·.2)

def replace (es : Entries) (key : String) (item : Item) : Entries :=
  es.map fun e => if e.1 == key then (key, item) else e

/-- Changes the table that a path leads to, with the knowledge whether it is dotted; tables that
are missing on the way are made. The last of several tables under one key is meant. -/
def within (dotted : Bool) (change : Bool → Entries → Option Entries) :
    List String → Bool → Entries → Option Entries
  | [], isDotted, es => change isDotted es
  | key :: rest, _, es =>
    match at? es key with
    | none => do
      let made ← within dotted change rest dotted []
      pure (es ++ [(key, .table true dotted made)])
    | some (.value _) => none
    | some (.table isImplicit isDotted entries) =>
      if dotted && !isImplicit then none
      else do
        let changed ← within dotted change rest isDotted entries
        pure (replace es key (.table isImplicit isDotted changed))
    | some (.tables all) =>
      match all.getLast? with
      | none => none
      | some last => do
        let changed ← within dotted change rest false last
        pure (replace es key (.tables (all.dropLast ++ [changed])))

/-- Puts a value under a dotted key. -/
def insert (es : Entries) (path : List String) (t : Toml) : Option Entries :=
  match path.getLast? with
  | none => none
  | some name =>
    let parents := path.dropLast
    within true (fun isDotted inner =>
      if isDotted = parents.isEmpty ∨ (at? inner name).isSome then none
      else some (inner ++ [(name, .value t)])) parents false es

/-- Opens the table of a header. One that came about on the way to another moves to the end. -/
def openTable (es : Entries) (path : List String) : Option Entries :=
  match path.getLast? with
  | none => none
  | some name =>
    within false (fun _ inner =>
      match at? inner name with
      | none => some (inner ++ [(name, .table false false [])])
      | some (.table true false entries) =>
        some (inner.filter (·.1 != name) ++ [(name, .table false false entries)])
      | some _ => none) path.dropLast false es

/-- Opens one more table of a header in double brackets. -/
def openNext (es : Entries) (path : List String) : Option Entries :=
  match path.getLast? with
  | none => none
  | some name =>
    within false (fun _ inner =>
      match at? inner name with
      | none => some (inner ++ [(name, .tables [[]])])
      | some (.tables all) => some (replace inner name (.tables (all ++ [[]])))
      | some _ => none) path.dropLast false es

/-- Puts a value under a dotted key of the table of a header. -/
def insertUnder (es : Entries) (header path : List String) (t : Toml) : Option Entries :=
  within false (fun _ inner => insert inner path t) header false es

def toToml (es : Entries) : Toml := (Item.table false false es).toToml

end Entries

namespace Reader

mutual

/-- A value; the depth counts the brackets and braces around it. -/
def value : Nat → Nat → List Char → Option (Toml × List Char)
  | 0, _, _ => none
  | fuel + 1, depth, cs =>
    match cs with
    | [] => none
    | c :: rest =>
      if c = '"' ∨ c = '\'' then (string cs).map fun (s, rest) => (.string s, rest)
      else if c = '[' then
        if maxDepth ≤ depth + 1 then none
        else (items fuel (depth + 1) rest).map fun (xs, rest) => (.array xs, rest)
      else if c = '\x7b' then
        if maxDepth ≤ depth + 1 then none
        else (pairs fuel (depth + 1) [] rest).map fun (es, rest) => (es.toToml, rest)
      else if c = 't' then word "true" (.boolean true) cs
      else if c = 'f' then word "false" (.boolean false) cs
      else if c = 'i' ∨ c = 'n' then specialFloat cs
      else if c.isDigit ∨ c = '+' ∨ c = '-' then numeric cs
      else none

/-- The items of an array up to its closing bracket. -/
def items : Nat → Nat → List Char → Option (List Toml × List Char)
  | 0, _, _ => none
  | fuel + 1, depth, cs =>
    match skipFiller false cs with
    | ']' :: rest => some ([], rest)
    | start => do
      let (x, rest) ← value fuel depth start
      match skipFiller false rest with
      | ',' :: more => do
        let (xs, rest) ← items fuel depth more
        pure (x :: xs, rest)
      | ']' :: more => pure ([x], more)
      | _ => none

/-- The entries of a table in braces, added to those that stand before them. -/
def pairs : Nat → Nat → Entries → List Char → Option (Entries × List Char)
  | 0, _, _, _ => none
  | fuel + 1, depth, es, cs =>
    match es, skipSpace cs with
    | [], '\x7d' :: rest => some ([], rest)
    | _, start => do
      let (path, rest) ← key start
      let rest ← expect '=' rest
      let (x, rest) ← value fuel depth (skipSpace rest)
      let es ← es.insert path x
      match skipSpace rest with
      | ',' :: more => pairs fuel depth es more
      | '\x7d' :: more => pure (es, more)
      | _ => none

end

def fuelFor (cs : List Char) : Nat := 2 * cs.length + 4

/-- The lines of a document from here on; the path is that of the last header. -/
def lines : Nat → List String → Entries → List Char → Option Entries
  | 0, _, _, _ => none
  | fuel + 1, header, es, cs =>
    match skipSpace cs with
    | [] => some es
    | '#' :: rest => do lines fuel header es (← lineEnd ('#' :: rest))
    | '[' :: '[' :: rest => do
      let (path, rest) ← key rest
      let rest ← (expect ']' rest).bind (expect ']')
      let rest ← lineEnd rest
      lines fuel path (← es.openNext path) rest
    | '[' :: rest => do
      let (path, rest) ← key rest
      let rest ← expect ']' rest
      let rest ← lineEnd rest
      lines fuel path (← es.openTable path) rest
    | start =>
      match newline? start with
      | some rest => lines fuel header es rest
      | none => do
        let (path, rest) ← key start
        let rest ← expect '=' rest
        let (x, rest) ← value (fuelFor rest) 0 (skipSpace rest)
        let rest ← lineEnd rest
        lines fuel header (← es.insertUnder header path x) rest

end Reader

/-- Reads a document; the result is a table. -/
def read? (text : String) : Option Toml :=
  let cs := match text.toList with
    | c :: rest => if c.toNat = 0xFEFF then rest else c :: rest
    | [] => []
  (Reader.lines (cs.length + 1) [] [] cs).map Entries.toToml

mutual

/-- Puts every table in the order of its keys. A table whose first key marks a date or time has to
hold one in a string, and becomes that date or time, whatever stands after it. -/
def settle? : Toml → Option Toml
  | .array items => (settleItems? items).map .array
  | .table [] => some (.table [])
  | .table ((k, t) :: rest) =>
    if k = dateMarker then
      match t with
      | .string s => Reader.marked? s
      | _ => none
    else do
      let first ← settle? t
      let others ← settleEntries? rest
      pure (.table (((k, first) :: others).mergeSort fun a b => decide (a.1 ≤ b.1)))
  | t => some t

def settleItems? : List Toml → Option (List Toml)
  | [] => some []
  | t :: rest => do pure ((← settle? t) :: (← settleItems? rest))

def settleEntries? : List (String × Toml) → Option (List (String × Toml))
  | [] => some []
  | (k, t) :: rest => do pure ((k, ← settle? t) :: (← settleEntries? rest))

end

end Linkage.Toml
