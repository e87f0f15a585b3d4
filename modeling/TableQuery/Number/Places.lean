import TableQuery.Number.Shortest

/-! Numbers written with a given count of decimals or digits. -/

namespace TableQuery
namespace Places

def digits (n : Nat) : List Char := Nat.toDigits 10 n

/-- The last `places` digits after a point, of which there is none without them unless `kept`. -/
def withPoint (kept : Bool) (places n : Nat) : List Char :=
  let cs := digits n
  let cs := List.replicate (places + 1 - cs.length) '0' ++ cs
  let whole := cs.take (cs.length - places)
  if places = 0 then (if kept then whole ++ ['.'] else whole)
  else whole ++ '.' :: cs.drop (cs.length - places)

/-- `num / den` with `places` decimals. -/
def fixed (kept : Bool) (num den places : Nat) : List Char :=
  withPoint kept places (Binary64.roundHalfEven (num * Nat.pow 10 places) den)

/-- The power of ten of the first digit; zero has its first digit at the point. -/
def magnitude (num den : Nat) : Int :=
  if num = 0 then 0
  else if den ≤ num then (digits (num / den)).length - 1
  else -((((List.range 400).find? fun k => den ≤ num * Nat.pow 10 k).getD 0 : Nat) : Int)

/-- The first `places + 1` digits and the power of ten of the first one, after rounding. -/
def leading (num den places : Nat) : Nat × Int :=
  let e := magnitude num den
  let shift := e - places
  let n := if 0 ≤ shift then Binary64.roundHalfEven num (den * Nat.pow 10 shift.toNat)
    else Binary64.roundHalfEven (num * Nat.pow 10 (-shift).toNat) den
  if Nat.pow 10 (places + 1) ≤ n then (n / 10, e + 1) else (n, e)

def exponentText (mark : Char) (e : Int) : List Char :=
  let cs := digits e.natAbs
  mark :: (if e < 0 then '-' else '+') :: (if cs.length < 2 then '0' :: cs else cs)

/-- One digit before the point and `places` after it, with an exponent. -/
def scientific (kept : Bool) (mark : Char) (num den places : Nat) : List Char :=
  let (n, e) := leading num den places
  withPoint kept places n ++ exponentText mark e

def dropZeros (cs : List Char) : List Char :=
  if cs.contains '.' then
    let kept := (cs.reverse.dropWhile (· == '0')).reverse
    if kept.getLast? = some '.' then kept.dropLast else kept
  else cs

/-- `precision` digits, positional unless the number is small or large beside them; without `kept`
there are no zeros at the end of the decimals. -/
def general (kept : Bool) (mark : Char) (num den precision : Nat) : List Char :=
  let p := max precision 1
  let (n, e) := leading num den (p - 1)
  let trim (cs : List Char) := if kept then cs else dropZeros cs
  if -4 ≤ e ∧ e < p then trim (fixed kept num den (p - 1 - e).toNat)
  else trim (withPoint kept (p - 1) n) ++ exponentText mark e

end Places
end TableQuery
