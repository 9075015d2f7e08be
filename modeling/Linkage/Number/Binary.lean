import Linkage.Number.Natural

/-!
Binary floating-point numbers as exact values. A finite number is a sign, a natural mantissa and
a power of two, so that being integral, comparing and rounding are statements about `Nat` and
`Int`. A `Format` says which of these numbers a width can hold; `Binary.ofRatio` rounds a quotient
to the nearest of them, a half going to the even mantissa.
-/
namespace Linkage

/-- A binary floating-point number; `finite neg m e` stands for `m · 2 ^ e` with its sign, so that
there are two zeros. -/
inductive Binary where
  | nan
  | infinite (negative : Bool)
  | finite (negative : Bool) (mantissa : Nat) (exponent : Int)
  deriving Repr, DecidableEq, Inhabited

namespace Binary

/-- A width: how many bits a mantissa has and between which exponents it can stand. -/
structure Format where
  precision : Nat
  least : Int
  most : Int
  /-- Bits of the exponent field in the interchange form. -/
  fieldBits : Nat

def Format.double : Format := ⟨53, -1074, 971, 11⟩

def Format.single : Format := ⟨24, -149, 104, 8⟩

def zero (fmt : Format) (negative : Bool) : Binary := .finite negative 0 fmt.least

/-- The fraction `num / den / 2 ^ e` as a fraction of naturals. -/
def scale (num den : Nat) (e : Int) : Nat × Nat :=
  if 0 ≤ e then (num, den * twoTo e.toNat) else (num * twoTo (-e).toNat, den)

/-- The quotient rounded to the nearest natural, a half going to the even one. -/
def roundQuotient (num den : Nat) : Nat :=
  let floor := num / den
  let twice := 2 * (num % den)
  if twice < den then floor
  else if den < twice then floor + 1
  else if floor % 2 = 0 then floor else floor + 1

/-- The exponent at which `num / den` has as many mantissa bits as the format allows. -/
def exponentFor (fmt : Format) (num den : Nat) : Int :=
  let guess : Int := (num.log2 : Int) - den.log2 - fmt.precision
  let (n, d) := scale num den guess
  max fmt.least (if twoTo fmt.precision ≤ n / d then guess + 1 else guess)

/-- The number of the format nearest to `num / den`. -/
def ofRatio (fmt : Format) (negative : Bool) (num den : Nat) : Binary :=
  if num = 0 ∨ den = 0 then zero fmt negative
  else
    let e := exponentFor fmt num den
    let (n, d) := scale num den e
    let m := roundQuotient n d
    let (m, e) := if m = twoTo fmt.precision then (m / 2, e + 1) else (m, e)
    if fmt.most < e then .infinite negative else .finite negative m e

def ofInt (fmt : Format) (n : Int) : Binary := ofRatio fmt (decide (n < 0)) n.natAbs 1

/-- Rounds a number into a narrower or wider format. -/
def convert (fmt : Format) : Binary → Binary
  | .nan => .nan
  | .infinite s => .infinite s
  | .finite s m e =>
    if 0 ≤ e then ofRatio fmt s (m * twoTo e.toNat) 1 else ofRatio fmt s m (twoTo (-e).toNat)

def isFinite : Binary → Bool
  | .finite .. => true
  | _ => false

/-- The integer that a number is equal to, if it is one. -/
def toInt? : Binary → Option Int
  | .finite s m e =>
    let sign : Int := if s then -1 else 1
    if 0 ≤ e then some (sign * (m * twoTo e.toNat : Nat))
    else if m % twoTo (-e).toNat = 0 then some (sign * (m / twoTo (-e).toNat : Nat))
    else none
  | _ => none

/-- Whether the absolute value is greater than `n`. -/
def magnitudeAbove (n : Nat) : Binary → Bool
  | .finite _ m e => if 0 ≤ e then n < m * twoTo e.toNat else n * twoTo (-e).toNat < m
  | .infinite _ => true
  | .nan => false

/-- Numerical equality: a NaN differs from everything and the two zeros are equal. -/
def same : Binary → Binary → Bool
  | .infinite s, .infinite t => s == t
  | .finite s m e, .finite t n f =>
    let low := min e f
    m * twoTo (e - low).toNat == n * twoTo (f - low).toNat && (s == t || m == 0)
  | _, _ => false

/-- The greatest finite number of a format, when that number is an integer. -/
def greatest (fmt : Format) : Nat := (twoTo fmt.precision - 1) * twoTo fmt.most.toNat

/-- The interchange form: sign bit, exponent field, fraction field. -/
def toBits (fmt : Format) : Binary → Nat
  | .nan =>
    (twoTo fmt.fieldBits - 1) * twoTo (fmt.precision - 1) + twoTo (fmt.precision - 2)
  | .infinite s => sign s + (twoTo fmt.fieldBits - 1) * twoTo (fmt.precision - 1)
  | .finite s m e =>
    if m < twoTo (fmt.precision - 1) then sign s + m
    else sign s + (e - fmt.least).toNat * twoTo (fmt.precision - 1) + m
where
  sign (s : Bool) : Nat := if s then twoTo (fmt.fieldBits + fmt.precision - 1) else 0

end Binary

end Linkage
