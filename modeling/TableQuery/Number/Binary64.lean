/-! Binary floating-point numbers of 64 bits, as exact values. -/

namespace TableQuery

/-- A finite number is `significand * 2 ^ exponent`, with a significand below `2 ^ 53` and an
exponent of at least `-1074`; the significand is below `2 ^ 52` only at the least exponent. What is
no number is equal to nothing, and only the object that it is tells it from another one. -/
inductive Binary64
  | finite (negative : Bool) (significand : Nat) (exponent : Int)
  | infinity (negative : Bool)
  | nan (object : Nat := 0)
deriving DecidableEq, Repr

namespace Binary64

def zero (negative : Bool) : Binary64 := .finite negative 0 (-1074)

/-- `num / den` rounded to the nearest integer, a half to the even one. -/
def roundHalfEven (num den : Nat) : Nat :=
  let q := num / den
  let r := 2 * (num % den)
  if r < den then q else if den < r then q + 1 else if q % 2 = 0 then q else q + 1

/-- `num / den / 2 ^ e` as a fraction. -/
def scaled (num den : Nat) (e : Int) : Nat × Nat :=
  if 0 ≤ e then (num, den * Nat.pow 2 e.toNat) else (num * Nat.pow 2 (-e).toNat, den)

/-- The number nearest to `num / den`, an even significand in a tie. -/
def ofRatio (negative : Bool) (num den : Nat) : Binary64 :=
  if num = 0 ∨ den = 0 then zero negative else
  let low : Int := (Nat.log2 num : Int) - Nat.log2 den - 53
  let wide (e : Int) : Bool := let (n, d) := scaled num den e; Nat.pow 2 53 * d ≤ n
  let e := max (-1074) (if wide low then low + 1 else low)
  let (n, d) := scaled num den e
  let m := roundHalfEven n d
  let (m, e) := if m = Nat.pow 2 53 then (Nat.pow 2 52, e + 1) else (m, e)
  if 971 < e then .infinity negative else .finite negative m e

/-- The number nearest to `digits * 10 ^ exponent`. -/
def ofDecimal (negative : Bool) (digits : Nat) (exponent : Int) : Binary64 :=
  if digits = 0 then zero negative
  else
    let size : Int := (Nat.toDigits 10 digits).length + exponent
    if 400 < size then .infinity negative
    else if size < -400 then zero negative
    else if 0 ≤ exponent then ofRatio negative (digits * Nat.pow 10 exponent.toNat) 1
    else ofRatio negative digits (Nat.pow 10 (-exponent).toNat)

def ofInt (n : Int) : Binary64 := ofRatio (n < 0) n.natAbs 1

def isFinite : Binary64 → Bool
  | .finite .. => true
  | _ => false

/-- The value as a fraction with a power of two below. -/
def ratio? : Binary64 → Option (Int × Nat)
  | .finite s m e =>
    let (n, d) := scaled m 1 (-e)
    some (if s then -(n : Int) else n, d)
  | _ => none

/-- The integer toward zero. -/
def truncate? (x : Binary64) : Option Int := x.ratio?.map fun (n, d) => Int.tdiv n d

def isIntegral (x : Binary64) : Bool :=
  match x.ratio? with
  | some (n, d) => n % d == 0
  | none => false

/-- Order of two numbers; none beside a number that is not one. -/
def compare? (x y : Binary64) : Option Ordering :=
  match x, y with
  | .nan _, _ | _, .nan _ => none
  | .infinity s, .infinity t => some (compare (!s) (!t))
  | .infinity s, _ => some (if s then .lt else .gt)
  | _, .infinity t => some (if t then .gt else .lt)
  | x, y => do
    let (a, b) ← x.ratio?
    let (c, d) ← y.ratio?
    some (compare (a * d) (c * b))

/-- Order of a number beside an integer, both taken exactly. -/
def compareInt? (x : Binary64) (n : Int) : Option Ordering :=
  match x with
  | .nan _ => none
  | .infinity s => some (if s then .lt else .gt)
  | x => x.ratio?.map fun (a, b) => compare a (n * b)

def same (x y : Binary64) : Bool := x.compare? y == some .eq

def sameInt (x : Binary64) (n : Int) : Bool := x.compareInt? n == some .eq

def isZero (x : Binary64) : Bool := x.sameInt 0

end Binary64
end TableQuery
