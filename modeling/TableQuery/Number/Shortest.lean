import TableQuery.Number.Binary64

/-! The shortest decimal that reads back as a binary number, and its text. -/

namespace TableQuery
namespace Binary64

/-- The reals that round to a positive number: both ends over one denominator, and whether the ends
belong to it. -/
structure Interval where
  low : Nat
  value : Nat
  high : Nat
  den : Nat
  closed : Bool

def interval (m : Nat) (e : Int) : Interval :=
  let low := if m = Nat.pow 2 52 ∧ -1074 < e then 4 * m - 1 else 4 * m - 2
  let (unit, den) := scaled 1 4 (-e)
  ⟨low * unit, 4 * m * unit, (4 * m + 2) * unit, den, m % 2 = 0⟩

/-- Whether `digits * 10 ^ exponent` lies in the interval. -/
def Interval.contains (i : Interval) (digits : Nat) (exponent : Int) : Bool :=
  let (num, den) := if 0 ≤ exponent then (digits * Nat.pow 10 exponent.toNat, 1)
    else (digits, Nat.pow 10 (-exponent).toNat)
  let x := num * i.den
  if i.closed then i.low * den ≤ x && x ≤ i.high * den else i.low * den < x && x < i.high * den

/-- `value / 10 ^ exponent` as a fraction. -/
def Interval.onGrid (i : Interval) (exponent : Int) : Nat × Nat :=
  if 0 ≤ exponent then (i.value, i.den * Nat.pow 10 exponent.toNat)
  else (i.value * Nat.pow 10 (-exponent).toNat, i.den)

/-- Of the two neighbours of the value among the multiples of `10 ^ exponent`, the nearer one in the
interval; the even one of two equally near. -/
def Interval.nearest? (i : Interval) (exponent : Int) : Option Nat :=
  let (n, d) := i.onGrid exponent
  let first := roundHalfEven n d
  let second := if first = n / d then first + 1 else n / d
  if i.contains first exponent then some first
  else if i.contains second exponent then some second else none

/-- The least `k` among four candidates for which the value is below `10 ^ k`. -/
def Interval.magnitude (i : Interval) (guess : Int) : Int :=
  let below (k : Int) : Bool := let (n, d) := i.onGrid k; n < d
  if below guess then guess else if below (guess + 1) then guess + 1
  else if below (guess + 2) then guess + 2 else guess + 3

/-- The fewest digits, at most `left` of them more than `count`, and the exponent of the last. -/
def Interval.shortest (i : Interval) (k : Int) (count : Nat) : (left : Nat) → Nat × Int
  | 0 => (i.value / i.den, 0)
  | left + 1 =>
    match i.nearest? (k - count) with
    | some digits => (digits, k - count)
    | none => i.shortest k (count + 1) left

/-- Digits and decimal exponent of a positive number. -/
def shortestDigits (m : Nat) (e : Int) : Nat × Int :=
  let i := interval m e
  i.shortest (i.magnitude ((Nat.log2 m + e) * 30103 / 100000)) 1 17

/-- An integral number of its shortest digits, filled up with zeros. -/
def shortestInt? : Binary64 → Option Int
  | .finite s m e =>
    let (digits, exponent) := if m = 0 then (0, 0) else shortestDigits m e
    let n : Int := if exponent < 0 then digits / Nat.pow 10 (-exponent).toNat else digits * Nat.pow 10 exponent.toNat
    some (if s then -n else n)
  | _ => none

/-- Digits without the zeros at their end, and the position of the point after the first digit. -/
def significant (digits : Nat) (exponent : Int) : List Char × Int :=
  let cs := Nat.toDigits 10 digits
  let kept := (cs.reverse.dropWhile (· == '0')).reverse
  (if kept.isEmpty then ['0'] else kept, exponent + cs.length - 1)

/-- Positional from `1e-4` up to `1e16`, with at least one decimal; beyond that with an exponent of
at least two digits. -/
def textOf (digits : List Char) (point : Int) : List Char :=
  if -4 ≤ point ∧ point < 16 then
    if point < 0 then '0' :: '.' :: List.replicate (-point - 1).toNat '0' ++ digits
    else
      let whole := point.toNat + 1
      if digits.length ≤ whole then
        digits ++ List.replicate (whole - digits.length) '0' ++ ['.', '0']
      else digits.take whole ++ '.' :: digits.drop whole
  else
    let fraction := match digits with
      | [d] => [d]
      | d :: rest => d :: '.' :: rest
      | [] => []
    let power := Nat.toDigits 10 point.natAbs
    fraction ++ 'e' :: (if point < 0 then '-' else '+') ::
      (if power.length < 2 then '0' :: power else power)

/-- The text of a number. -/
def text : Binary64 → String
  | .nan _ => "nan"
  | .infinity s => if s then "-inf" else "inf"
  | .finite s m e =>
    let body :=
      if m = 0 then ['0', '.', '0']
      else
        let (digits, exponent) := shortestDigits m e
        let (cs, point) := significant digits exponent
        textOf cs point
    String.ofList (if s then '-' :: body else body)

end Binary64
end TableQuery
