import TableQuery.Fault
import TableQuery.Number.Reading

/-! Points in time, as seconds since 1970, written as dates. -/

namespace TableQuery
namespace Logging
namespace Timestamp

def million : Nat := 1000000

/-- Whole seconds and microseconds. The fraction is taken to microseconds as a binary number, and
then rounded, a half to the even neighbour. -/
def split (negative : Bool) (m : Nat) (e : Int) : Int × Nat :=
  let (num, den) := Binary64.scaled m 1 (-e)
  let whole : Int := if negative then -(num / den : Nat) else (num / den : Nat)
  let scaledUp := Binary64.ofRatio false (num % den * million) den
  let micros : Nat := match scaledUp with
    | .finite _ m e =>
      let (n, d) := Binary64.scaled m 1 (-e)
      Binary64.roundHalfEven n d
    | _ => 0
  if negative then
    if micros = 0 then (whole, 0) else (whole - 1, million - micros)
  else if million ≤ micros then (whole + 1, micros - million) else (whole, micros)

structure Date where
  year : Int
  month : Nat
  day : Nat

/-- The date of a day counted from the first of January 1970, in the calendar of 400-year cycles that
begin in March. -/
def dateOfDay (n : Int) : Date :=
  let z := n + 719468
  let era := Int.fdiv z 146097
  let doe := (z - era * 146097).toNat
  let yoe := (doe - doe / 1460 + doe / 36524 - doe / 146096) / 365
  let doy := doe - (365 * yoe + yoe / 4 - yoe / 100)
  let mp := (5 * doy + 2) / 153
  let month := if mp < 10 then mp + 3 else mp - 9
  ⟨yoe + era * 400 + (if month ≤ 2 then 1 else 0), month, doy - (153 * mp + 2) / 5 + 1⟩

def padded (width n : Nat) : String :=
  let cs := Nat.toDigits 10 n
  String.ofList (List.replicate (width - cs.length) '0' ++ cs)

/-- Years are counted from 1900 in 32 bits. -/
def isCountable (year : Int) : Bool := -(Int.pow 2 31) ≤ year - 1900 && year - 1900 < Int.pow 2 31

/-- Microseconds are written only where there are any. Years have four digits, from 1 on; a message
shows 32 bits of a year. -/
def ofSeconds (seconds : Int) (micros : Nat) : Outcome String :=
  let day := Int.fdiv seconds 86400
  let rest := (seconds - day * 86400).toNat
  let d := dateOfDay day
  if !isCountable d.year then .error .yearTooLarge
  else if d.year < 1 ∨ 9999 < d.year then
    .error (.badValue ("year " ++ toString (d.year.bmod (Nat.pow 2 32)) ++ " is out of range"))
  else
    .ok (padded 4 d.year.toNat ++ "-" ++ padded 2 d.month ++ "-" ++ padded 2 d.day ++ "T" ++
      padded 2 (rest / 3600) ++ ":" ++ padded 2 (rest / 60 % 60) ++ ":" ++ padded 2 (rest % 60) ++
      (if micros = 0 then "" else "." ++ padded 6 micros) ++ "+00:00")

def unreachable : Fault := .overflow "timestamp out of range for platform time_t"

def text : Binary64 → Outcome String
  | .nan _ => .error (.badValue "Invalid value NaN (not a number)")
  | .infinity _ => .error unreachable
  | .finite s m e =>
    let (seconds, micros) := split s m e
    if -(Int.pow 2 63) ≤ seconds ∧ seconds ≤ Int.pow 2 63 then ofSeconds seconds micros
    else .error unreachable

/-- Seconds as a text writes them. -/
def read (s : String) : Outcome Binary64 :=
  match Numeral.floatOfText s.toList with
  | some x => .ok x
  | none => .error (.badValue ("could not convert string to float: " ++ Text.quoted s))

end Timestamp
end Logging
end TableQuery
