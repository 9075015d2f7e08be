import Linkage.Classpath.Index

/-!
Choosing the form of a class for a target release. Of the forms that one entry has, the one with
the highest release not above the target counts, else the base form. An entry that only has forms
for later releases has none to offer, which is reported.
-/
namespace Linkage.Classpath

/-- A class of which an entry only has forms for releases above the target. -/
structure ReleaseMismatch where
  name : String
  entry : Nat
  location : String
  lowest : Nat
  target : Nat
  deriving Repr, DecidableEq, Inhabited

namespace ReleaseMismatch

def toJson (m : ReleaseMismatch) : Json :=
  .object [("qualified_name", .string m.name), ("entry", .ofNat m.entry),
    ("location", .string m.location), ("lowest_release", .ofNat m.lowest),
    ("target_release", .ofNat m.target)]

def diagnostic (m : ReleaseMismatch) : Diagnostic :=
  (Diagnostic.warning Diagnostic.Code.releaseMismatch
    ("`" ++ m.name ++ "` in `" ++ m.location ++ "` only has variants for release " ++
      toString m.lowest ++ " and above (target " ++ toString m.target ++ ")"))
    |>.withContext "qualifiedName" m.name
    |>.withContext "entry" m.location
    |>.withContext "lowestRelease" (toString m.lowest)
    |>.withContext "targetRelease" (toString m.target)

end ReleaseMismatch

/-- What the records seen so far offer: the best versioned form, the first base form, and the
lowest release above the target. -/
structure Offer where
  versioned : Option (Nat × Record) := none
  base : Option Record := none
  above : Option Nat := none

def Offer.add (target : Nat) (o : Offer) (r : Record) : Offer :=
  match r.variant with
  | .base => { o with base := o.base <|> some r }
  | .versioned release =>
    if release ≤ target then
      match o.versioned with
      | some (known, _) => if known < release then { o with versioned := some (release, r) } else o
      | none => { o with versioned := some (release, r) }
    else
      { o with above := some (match o.above with
        | some known => min known release
        | none => release) }

/-- The record of one entry that counts at the target release. -/
def selectVariant (target : Nat) (records : List Record) : Except ReleaseMismatch Record :=
  let offer := records.foldl (Offer.add target) {}
  match offer.versioned, offer.base with
  | some (_, r), _ => .ok r
  | none, some r => .ok r
  | none, none =>
    let first := records.head?
    .error {
      name := (first.map (·.name)).getD ""
      entry := (first.map (·.origin.entry)).getD 0
      location := (first.map (·.origin.location)).getD ""
      lowest := offer.above.getD target
      target }

/-- Cuts records into runs of one entry. -/
def byEntry : List Record → List (List Record)
  | [] => []
  | r :: rest =>
    match byEntry rest with
    | (next :: more) :: others =>
      if next.origin.entry = r.origin.entry then (r :: next :: more) :: others
      else [r] :: (next :: more) :: others
    | others => [r] :: others

/-- The records that count at a release: at most one for every name and entry. -/
structure Selection where
  target : Nat
  symbols : List (String × List Record)
  mismatches : List ReleaseMismatch
  deriving Repr, DecidableEq, Inhabited

def winnersOf (target : Nat) (records : List Record) : List Record :=
  (byEntry records).filterMap fun group => (selectVariant target group).toOption

def mismatchesOf (target : Nat) (records : List Record) : List ReleaseMismatch :=
  (byEntry records).filterMap fun group =>
    match selectVariant target group with
    | .error m => some m
    | .ok _ => none

def Index.select (ix : Index) (target : Nat) : Selection :=
  let symbols := ix.symbols
  { target
    symbols := (symbols.map fun (n, rs) => (n, winnersOf target rs)).filter (!·.2.isEmpty)
    mismatches := symbols.flatMap fun (_, rs) => mismatchesOf target rs }

end Linkage.Classpath
