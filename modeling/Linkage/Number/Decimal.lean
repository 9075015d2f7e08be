import Linkage.Number.Binary
import Linkage.Text.Basic

/-!
Decimal text of binary numbers. Reading rounds the written quotient exactly. Writing takes the
fewest digits that read back to the same number, of those the ones nearest to it, and puts them
out positionally: there is never an exponent, and a whole number has no point.
-/
namespace Linkage.Binary

/-- The reals that round to `m · 2 ^ e`, as numerators over four times the unit of the exponent:
the number itself, the lower end, the upper end, and whether the ends belong to it. -/
structure Interval where
  value : Nat
  low : Nat
  high : Nat
  den : Nat
  closed : Bool

def intervalOf (fmt : Format) (m : Nat) (e : Int) : Interval :=
  let below := if m = twoTo (fmt.precision - 1) ∧ fmt.least < e then 1 else 2
  let (up, den) := if 0 ≤ e then (twoTo e.toNat, 4) else (1, 4 * twoTo (-e).toNat)
  ⟨4 * m * up, (4 * m - below) * up, (4 * m + 2) * up, den, m % 2 = 0⟩

/-- Whether `digits · 10 ^ k` lies in the interval. -/
def Interval.admits (i : Interval) (digits : Nat) (k : Int) : Bool :=
  let (n, d) := if 0 ≤ k then (digits * tenTo k.toNat, 1) else (digits, tenTo (-k).toNat)
  let point := n * i.den
  if i.closed then i.low * d ≤ point && point ≤ i.high * d
  else i.low * d < point && point < i.high * d

/-- The number `p` with `10 ^ (p - 1) ≤ num / den < 10 ^ p`, found upward from a lower bound. -/
def decimalPointFrom (num den : Nat) : Nat → Int → Int
  | 0, p => p
  | fuel + 1, p =>
    let below := if 0 ≤ p then num < den * tenTo p.toNat else num * tenTo (-p).toNat < den
    if below then p else decimalPointFrom num den fuel (p + 1)

def decimalPoint (num den : Nat) : Int :=
  let bits : Int := (num.log2 : Int) - den.log2
  decimalPointFrom num den 8 ((bits - 1) * 30103 / 100000 - 1)

/-- Of the two neighbours of the number on the grid of `10 ^ k`, the one to write: the nearer of
those that read back, the upper one at a tie. -/
def Interval.onGrid (i : Interval) (k : Int) : Option Nat :=
  let (n, d) := if 0 ≤ k then (i.value, i.den * tenTo k.toNat) else (i.value * tenTo (-k).toNat, i.den)
  let floor := n / d
  let nearer := if d ≤ 2 * (n % d) then floor + 1 else floor
  let other := if nearer = floor then floor + 1 else floor
  if i.admits nearer k then some nearer
  else if i.admits other k then some other
  else none

/-- The first grid on which the number can be written, from coarse to fine. -/
def Interval.shortestFrom (i : Interval) (p : Int) : Nat → Nat → Nat × Int
  | 0, count => (i.value / i.den, p - count)
  | fuel + 1, count =>
    match i.onGrid (p - count) with
    | some digits => (digits, p - count)
    | none => i.shortestFrom p fuel (count + 1)

/-- The fewest digits `d` and the exponent `k` with which `d · 10 ^ k` reads back. -/
def shortest (fmt : Format) (m : Nat) (e : Int) : Nat × Int :=
  let i := intervalOf fmt m e
  i.shortestFrom (decimalPoint i.value i.den) 20 1

/-- Digits and exponent written out with a point where one is needed. -/
def positional (digits : Nat) (k : Int) : String :=
  let text := (toString digits).toList
  if 0 ≤ k then String.ofList (text ++ List.replicate k.toNat '0')
  else
    let places := (-k).toNat
    let padded := List.replicate (places + 1 - text.length) '0' ++ text
    let whole := padded.take (padded.length - places)
    let fraction := (padded.drop (padded.length - places)).reverse.dropWhile (· == '0') |>.reverse
    if fraction.isEmpty then String.ofList whole
    else String.ofList (whole ++ '.' :: fraction)

def text (fmt : Format) : Binary → String
  | .nan => "NaN"
  | .infinite false => "inf"
  | .infinite true => "-inf"
  | .finite s m e =>
    let body := if m = 0 then "0" else
      let (digits, k) := shortest fmt m e
      positional digits k
    if s then "-" ++ body else body

/-- The value of `digits · 10 ^ k`; exponents far outside every format are not written out. -/
def ofDecimal (fmt : Format) (negative : Bool) (digits count : Nat) (k : Int) : Binary :=
  if digits = 0 ∨ k + count < -400 then zero fmt negative
  else if 400 < k then .infinite negative
  else if 0 ≤ k then ofRatio fmt negative (digits * tenTo k.toNat) 1
  else ofRatio fmt negative digits (tenTo (-k).toNat)

def exponent? : List Char → Option Int
  | [] => some 0
  | c :: rest =>
    if c = 'e' ∨ c = 'E' then
      match rest with
      | '-' :: ds => (Text.digits? ds).map fun n => -(n : Int)
      | '+' :: ds => (Text.digits? ds).map fun n => (n : Int)
      | ds => (Text.digits? ds).map fun n => (n : Int)
    else none

/-- An unsigned decimal: digits with an optional point, at least one digit, and an exponent. -/
def unsigned? (fmt : Format) (negative : Bool) (cs : List Char) : Option Binary :=
  let whole := cs.takeWhile Char.isDigit
  let rest := cs.dropWhile Char.isDigit
  let (fraction, tail) := match rest with
    | '.' :: more => (more.takeWhile Char.isDigit, more.dropWhile Char.isDigit)
    | _ => ([], rest)
  let all := whole ++ fraction
  match Text.digits? all, exponent? tail with
  | some digits, some e => some (ofDecimal fmt negative digits all.length (e - fraction.length))
  | _, _ => none

/-- Reads a decimal number, `inf`, `infinity` or `nan`, with an optional sign. -/
def read? (fmt : Format) (s : String) : Option Binary :=
  let (negative, cs) := match s.toList with
    | '-' :: rest => (true, rest)
    | '+' :: rest => (false, rest)
    | cs => (false, cs)
  let word := String.ofList (cs.map Char.toLower)
  if word = "nan" then some .nan
  else if word = "inf" ∨ word = "infinity" then some (.infinite negative)
  else unsigned? fmt negative cs

end Linkage.Binary
