import Linkage.Xml.Node

/-!
Reading XML documents with namespaces and without document types. A document is one element with
comments and processing instructions around it; every prefix has to be declared, no attribute may
stand twice, and the only entities are the five that need no declaration. Line ends are read as
line feeds, except where a character reference wrote them.

Every reader takes the characters that are left and gives back what it read with the characters
after it, or nothing when the text is malformed.
-/
namespace Linkage.Xml.Reader

def isSpace (c : Char) : Bool := c == ' ' || c == '\t' || c == '\n' || c == '\r'

def skipSpace (cs : List Char) : List Char := cs.dropWhile isSpace

/-- Characters that a document may hold. -/
def isChar (c : Char) : Bool :=
  if c.toNat < 0x20 then isSpace c else c.toNat != 0xFFFE && c.toNat != 0xFFFF

def inRanges (ranges : List (Nat × Nat)) (c : Char) : Bool :=
  ranges.any fun (low, high) => low ≤ c.toNat && c.toNat ≤ high

/-- Characters that can start a name. -/
def isNameStart : Char → Bool := inRanges [
  (0x3A, 0x3A), (0x41, 0x5A), (0x5F, 0x5F), (0x61, 0x7A), (0xC0, 0xD6), (0xD8, 0xF6),
  (0xF8, 0x2FF), (0x370, 0x37D), (0x37F, 0x1FFF), (0x200C, 0x200D), (0x2070, 0x218F),
  (0x2C00, 0x2FEF), (0x3001, 0xD7FF), (0xF900, 0xFDCF), (0xFDF0, 0xFFFD), (0x10000, 0xEFFFF)]

/-- Characters that can stand inside a name. -/
def isNameChar (c : Char) : Bool :=
  isNameStart c || inRanges [(0x2D, 0x2E), (0x30, 0x39), (0xB7, 0xB7), (0x300, 0x36F),
    (0x203F, 0x2040)] c

def expect (c : Char) : List Char → Option (List Char)
  | x :: rest => if x = c then some rest else none
  | [] => none

def expectText (t : String) (cs : List Char) : Option (List Char) := t.toList.isPrefixOf? cs

def name (cs : List Char) : Option (String × List Char) :=
  match cs with
  | c :: _ =>
    if isNameStart c then some (String.ofList (cs.takeWhile isNameChar), cs.dropWhile isNameChar)
    else none
  | [] => none

/-- A name with an optional prefix, as the pair of both. -/
structure QName where
  space : String
  base : String
  deriving Repr, DecidableEq

def startsName : List Char → Bool
  | c :: _ => isNameStart c
  | [] => false

def qualifiedName (cs : List Char) : Option (QName × List Char) :=
  let run := cs.takeWhile isNameChar
  let rest := cs.dropWhile isNameChar
  match run.span (· != ':') with
  | (whole, []) => if startsName whole then some (⟨"", String.ofList whole⟩, rest) else none
  | (space, _ :: base) =>
    if base.contains ':' then none
    else if !space.isEmpty && !startsName space then none
    else if startsName base then some (⟨String.ofList space, String.ofList base⟩, rest)
    else none

/-- The characters before `stop`, all of which have to be allowed, and what follows `stop`. -/
def upTo (stop : List Char) : List Char → Option (List Char × List Char)
  | [] => none
  | c :: rest =>
    match stop.isPrefixOf? (c :: rest) with
    | some after => some ([], after)
    | none => if isChar c then (upTo stop rest).map fun (xs, after) => (c :: xs, after) else none

def hasRun (needle : List Char) : List Char → Bool
  | [] => false
  | c :: rest => needle.isPrefixOf (c :: rest) || hasRun needle rest

/-- A comment after its opening; two hyphens inside it are refused. -/
def comment (cs : List Char) : Option (List Char) :=
  match upTo ['-', '-', '>'] cs with
  | some (body, rest) =>
    if hasRun ['-', '-'] body || body.getLast? == some '-' then none else some rest
  | none => none

/-- A processing instruction after its opening. -/
def instruction (cs : List Char) : Option (List Char) :=
  if ("xml ".toList).isPrefixOf cs then none
  else match name cs with
    | some (_, rest) => (upTo ['?', '>'] (skipSpace rest)).map (·.2)
    | none => none

/-- Comments, processing instructions and space. -/
def misc : Nat → List Char → Option (List Char)
  | 0, cs => some cs
  | fuel + 1, cs =>
    let cs := skipSpace cs
    match expectText "<!--" cs, expectText "<?" cs with
    | some rest, _ => (comment rest).bind (misc fuel)
    | none, some rest => (instruction rest).bind (misc fuel)
    | none, none => some cs

/-- A quoted value in its written form. -/
def quoted (cs : List Char) : Option (List Char × List Char) :=
  match cs with
  | q :: rest =>
    if q = '"' ∨ q = '\'' then
      match upTo [q] rest with
      | some (value, after) => if value.contains '<' then none else some (value, after)
      | none => none
    else none
  | [] => none

def equals (cs : List Char) : Option (List Char) := (expect '=' (skipSpace cs)).map skipSpace

def assignment (cs : List Char) : Option (QName × List Char × List Char) := do
  let (key, cs) ← qualifiedName cs
  let cs ← equals cs
  let (value, cs) ← quoted cs
  pure (key, value, cs)

/-- Space between two parts of the declaration, which only its end may do without. -/
def declarationSpace (cs : List Char) : Option (List Char) :=
  match cs with
  | c :: _ =>
    if isSpace c then some (skipSpace cs)
    else if ['?', '>'].isPrefixOf cs then some cs else none
  | [] => some []

def declarationPart (cs : List Char) : Option (List Char) := (assignment cs).map (·.2.2)

/-- The declaration after its opening; only the version has to be there. -/
def declaration (cs : List Char) : Option (List Char) := do
  let cs ← declarationSpace cs
  if !"version".toList.isPrefixOf cs then none
  let cs ← (declarationPart cs).bind declarationSpace
  let cs ← if "encoding".toList.isPrefixOf cs then (declarationPart cs).bind declarationSpace
    else pure cs
  let cs ← if "standalone".toList.isPrefixOf cs then declarationPart cs else pure cs
  expectText "?>" (skipSpace cs)

def entity? (name : String) : Option Char :=
  match name with
  | "quot" => some '"'
  | "amp" => some '&'
  | "apos" => some '\''
  | "lt" => some '<'
  | "gt" => some '>'
  | _ => none

def digit? (radix : Nat) (c : Char) : Option Nat :=
  let n := c.toNat
  let value :=
    if 48 ≤ n && n ≤ 57 then n - 48
    else if 97 ≤ n && n ≤ 102 then n - 87
    else if 65 ≤ n && n ≤ 70 then n - 55
    else 99
  if value < radix then some value else none

/-- The character of a numeric reference; a number that is no character stands for U+FFFD. -/
def numericReference (radix : Nat) (cs : List Char) : Option (Char × List Char) :=
  let ds := cs.takeWhile fun c => (digit? radix c).isSome
  let rest := cs.dropWhile fun c => (digit? radix c).isSome
  if ds.isEmpty then none
  else
    let n := ds.foldl (fun n c => radix * n + (digit? radix c).getD 0) 0
    let valid := n < 0xD800 || (0xDFFF < n && n < 0x110000)
    let c := if valid then Char.ofNat n else '\uFFFD'
    if 4294967296 ≤ n || !isChar c then none
    else (expect ';' rest).map fun rest => (c, rest)

/-- A reference after its ampersand. -/
def reference (cs : List Char) : Option (Char × List Char) :=
  match cs with
  | '#' :: 'x' :: rest => numericReference 16 rest
  | '#' :: rest => numericReference 10 rest
  | _ => do
    let (n, rest) ← name cs
    let c ← entity? n
    let rest ← expect ';' rest
    pure (c, rest)

/-- Puts a character of the text behind what was gathered, the last of it first. A carriage return
turns into a line feed, together with a line feed right behind it. -/
def pushText (c : Char) (last : Bool) (gathered : List Char) : List Char :=
  match gathered with
  | '\r' :: before =>
    if last && c == '\r' then '\n' :: '\n' :: before
    else if c == '\n' then '\n' :: before
    else c :: '\n' :: before
  | _ => if last && c == '\r' then '\n' :: gathered else c :: gathered

/-- Resolves references in a run of text. After a reference one character is taken as it is. -/
def resolve : Nat → Bool → List Char → List Char → Option (List Char)
  | _, _, [], gathered => some gathered.reverse
  | 0, _, _ :: _, _ => none
  | fuel + 1, asIs, c :: rest, gathered =>
    if c = '&' then
      match reference rest with
      | some (x, rest) => resolve fuel true rest (x :: gathered)
      | none => none
    else if asIs then resolve fuel false rest (c :: gathered)
    else resolve fuel false rest (pushText c rest.isEmpty gathered)

def resolveText (cs : List Char) : Option (List Char) := resolve cs.length false cs []

/-- Resolves references in the value of an attribute. A line end or a tab is a space there, except
where a reference wrote it. -/
def resolveValue : Nat → List Char → Option (List Char)
  | _, [] => some []
  | 0, _ :: _ => none
  | fuel + 1, c :: rest =>
    if c = '&' then
      match reference rest with
      | some (x, rest) => (resolveValue fuel rest).map (x :: ·)
      | none => none
    else if c = '\r' && rest.head? == some '\n' then resolveValue fuel rest
    else (resolveValue fuel rest).map ((if isSpace c then ' ' else c) :: ·)

/-- Line ends of a section in which nothing is a reference. -/
def normalLineEnds (cs : List Char) : List Char :=
  let rec go : List Char → List Char → List Char
    | [], gathered => gathered.reverse
    | c :: rest, gathered => go rest (pushText c rest.isEmpty gathered)
  go cs []

/-- Adds a run of text behind the last child, to which it belongs if that is text too. -/
def pushRun (run : List Char) (children : List Node) : List Node :=
  match children with
  | .text before :: rest => .text (before ++ String.ofList run) :: rest
  | _ => .text (String.ofList run) :: children

/-- The namespaces in force, the innermost first. -/
abbrev Scope := List (String × String)

def xmlUri : String := "http://www.w3.org/XML/1998/namespace"

def xmlnsUri : String := "http://www.w3.org/2000/xmlns/"

def Scope.find? (scope : Scope) (key : String) : Option String :=
  (List.find? (fun b => b.1 == key) scope).map (·.2)

/-- The namespace of an attribute with a prefix. One prefix needs no declaration here, and has none
on an element. -/
def Scope.attributeSpace? (scope : Scope) (key : String) : Option String :=
  if key = "xml" then some xmlUri else scope.find? key

/-- The namespaces that the attributes of one element declare, put in front of the others. -/
def declare (outer : Scope) : List (QName × String) → Scope → Option Scope
  | [], own => some (own ++ outer)
  | (key, uri) :: rest, own =>
    if key.space = "xmlns" then
      if uri = xmlnsUri then none
      else if key.base = "xml" then (if uri = xmlUri then declare outer rest own else none)
      else if uri = xmlUri then none
      else if own.any (fun b => b.1 == key.base) then none
      else declare outer rest ((key.base, uri) :: own)
    else if key.base = "xmlns" then
      if uri = xmlUri ∨ uri = xmlnsUri then none
      else declare outer rest (("", uri) :: own)
    else declare outer rest own

def isDeclaration (key : QName) : Bool :=
  key.space == "xmlns" || key.base == "xmlns"

/-- Every prefixed attribute has a namespace, and no two attributes have one expanded name. -/
def attributesFit (scope : Scope) (keys : List QName) : Bool :=
  let expanded := keys.map fun k =>
    (if k.space = "" then some "" else (scope.attributeSpace? k.space).map ("u" ++ ·), k.base)
  expanded.all (fun e => e.1.isSome) && go expanded
where
  go : List (Option String × String) → Bool
    | [] => true
    | e :: rest => !rest.contains e && go rest

/-- The attributes of a start tag, and whether the tag leaves its element open. -/
def attributes : Nat → List Char → List (QName × String) →
    Option (List (QName × String) × Bool × List Char)
  | 0, _, _ => none
  | fuel + 1, cs, acc =>
    match skipSpace cs with
    | '/' :: '>' :: rest => some (acc.reverse, false, rest)
    | '>' :: rest => some (acc.reverse, true, rest)
    | inner =>
      if inner.length = cs.length then none
      else do
        let (key, raw, rest) ← assignment inner
        let value ← resolveValue raw.length raw
        attributes fuel rest ((key, String.ofList value) :: acc)

mutual

/-- An element after its opening bracket. -/
def element : Nat → Scope → List Char → Option (Node × List Char)
  | 0, _, _ => none
  | fuel + 1, outer, cs =>
    match qualifiedName cs with
    | none => none
    | some (tag, cs) =>
      match attributes (cs.length + 1) cs [] with
      | none => none
      | some (attrs, isOpen, cs) =>
        match declare outer attrs [] with
        | none => none
        | some scope =>
          if tag.space = "xmlns" ∨ (tag.space ≠ "" ∧ (scope.find? tag.space).isNone)
              ∨ attributesFit scope ((attrs.map (·.1)).filter fun k => !isDeclaration k) = false then
            none
          else if !isOpen then some (.element tag.base [], cs)
          else
            match content fuel scope [] cs with
            | none => none
            | some (children, close, rest) =>
              if close = tag then some (.element tag.base children, rest) else none

/-- What an element holds, up to and with its end tag. Children are gathered backwards. -/
def content : Nat → Scope → List Node → List Char → Option (List Node × QName × List Char)
  | 0, _, _, _ => none
  | fuel + 1, scope, children, cs =>
    match cs with
    | '<' :: '!' :: '-' :: '-' :: rest =>
      match comment rest with
      | some rest => content fuel scope (.marker :: children) rest
      | none => none
    | '<' :: '!' :: rest =>
      match expectText "[CDATA[" rest with
      | none => none
      | some rest =>
        match upTo [']', ']', '>'] rest with
        | some (run, rest) => content fuel scope (pushRun (normalLineEnds run) children) rest
        | none => none
    | '<' :: '?' :: rest =>
      match instruction rest with
      | some rest => content fuel scope (.marker :: children) rest
      | none => none
    | '<' :: '/' :: rest =>
      match qualifiedName rest with
      | none => none
      | some (close, rest) =>
        (expect '>' (skipSpace rest)).map fun rest => (children.reverse, close, rest)
    | '<' :: rest =>
      match element fuel scope rest with
      | some (child, rest) => content fuel scope (child :: children) rest
      | none => none
    | [] => none
    | _ =>
      let run := cs.takeWhile (· != '<')
      if run.all isChar && !hasRun [']', ']', '>'] run then
        match resolveText run with
        | some text =>
          let children := if text.isEmpty then children else pushRun text children
          content fuel scope children (cs.dropWhile (· != '<'))
        | none => none
      else none

end

def withoutMark (cs : List Char) : List Char :=
  match cs with
  | '\uFEFF' :: rest => rest
  | _ => cs

/-- The root element of a document. -/
def document (text : String) : Option Node := do
  let cs := withoutMark text.toList
  let cs ← match expectText "<?xml " cs with
    | some rest => declaration (' ' :: rest)
    | none => pure cs
  let cs ← misc cs.length cs
  let rest ← expect '<' cs
  let (root, rest) ← element (2 * rest.length + 2) [] rest
  let rest ← misc rest.length rest
  if (skipSpace rest).isEmpty then pure root else none

end Linkage.Xml.Reader
