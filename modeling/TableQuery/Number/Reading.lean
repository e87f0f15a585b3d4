import TableQuery.Number.Binary64
import TableQuery.Text.Blank
import TableQuery.Text.Digit

/-! Reading numbers from text. -/

namespace TableQuery

namespace Numeral

def isDigit (c : Char) : Bool := '0' ≤ c && c ≤ '9'

def value (cs : List Char) : Nat := cs.foldl (fun n c => 10 * n + (c.toNat - '0'.toNat)) 0

/-- A sign, if there is one, and the rest. -/
def sign : List Char → Bool × List Char
  | '-' :: cs => (true, cs)
  | '+' :: cs => (false, cs)
  | cs => (false, cs)

/-- Why a text is no integer. -/
inductive Unreadable
  | malformed
  | tooLong (digits : Nat)
deriving DecidableEq, Repr

/-- The most digits that an integer is read from, or written in. -/
def mostDigits : Nat := 4300

/-- Whether an integer has no more digits than are written. -/
def isWritable (n : Int) : Bool := (Nat.toDigits 10 n.natAbs).length ≤ mostDigits

/-- What is said of an integer that is not written. -/
def tooManyDigits : String :=
  "Exceeds the limit (" ++ toString mostDigits ++
    " digits) for integer string conversion; use sys.set_int_max_str_digits() to increase the limit"

/-- Whether each underscore stands between two digits. -/
def isGrouped : (afterDigit : Bool) → List Char → Bool
  | afterDigit, [] => afterDigit
  | afterDigit, c :: cs => if c = '_' then afterDigit && isGrouped false cs else isGrouped true cs

/-- Digits with underscores between them; too many are reported before what follows them. -/
def digits (cs : List Char) : Except Unreadable Nat :=
  let run := cs.takeWhile fun c => isDigit c || c == '_'
  let ds := run.filter isDigit
  if !isGrouped false run then .error .malformed
  else if mostDigits < ds.length then .error (.tooLong ds.length)
  else if run.length < cs.length then .error .malformed
  else .ok (value ds)

/-- An integer with spaces around it. -/
def int (isSpace : Char → Bool) (cs : List Char) : Except Unreadable Int := do
  let (negative, body) := sign ((cs.dropWhile isSpace))
  let n ← digits ((body.reverse.dropWhile isSpace).reverse)
  pure (if negative then -(n : Int) else n)

/-- An integer in the digits of any script. -/
def ofText (cs : List Char) : Except Unreadable Int :=
  int Text.isWhiteSpace (cs.map Text.plainDigit)

/-- An integer in ASCII octets. -/
def ofOctets (octets : List UInt8) : Except Unreadable Int :=
  int (fun c => Text.isWhiteSpace c && c.toNat < 0x80) (octets.map fun o => Char.ofNat o.toNat)

/-- Digits, optionally a point and more digits, optionally an exponent. -/
def decimal? (negative : Bool) (cs : List Char) : Option Binary64 :=
  let whole := cs.takeWhile isDigit
  let rest := cs.dropWhile isDigit
  let (places, rest) := match rest with
    | '.' :: more => (more.takeWhile isDigit, more.dropWhile isDigit)
    | _ => ([], rest)
  if whole.isEmpty && places.isEmpty then none
  else
    let build (exponent : Int) :=
      Binary64.ofDecimal negative (value (whole ++ places)) (exponent - places.length)
    match rest with
    | [] => some (build 0)
    | c :: more =>
      if c = 'e' ∨ c = 'E' then
        let (down, power) := sign more
        if power.isEmpty || !power.all isDigit then none
        else some (build (if down then -(value power : Int) else value power))
      else none

/-- A decimal, or a word for infinity or for what is not a number. -/
def float? (cs : List Char) : Option Binary64 :=
  let (negative, body) := sign cs
  let word := String.ofList (body.map Char.toLower)
  if word = "inf" ∨ word = "infinity" then some (.infinity negative)
  else if word = "nan" then some .nan
  else decimal? negative body

/-- Whether each underscore stands between two digits of a longer text. -/
def underscoresSplitDigits : (last : Char) → List Char → Bool
  | last, [] => last != '_'
  | last, c :: cs =>
    (if c = '_' then isDigit last else last != '_' || isDigit c) && underscoresSplitDigits c cs

/-- A number with spaces around it, in the digits of any script. -/
def floatOfText (cs : List Char) : Option Binary64 :=
  let cs := Text.stripBy Text.isWhiteSpace (cs.map Text.plainDigit)
  if underscoresSplitDigits ' ' cs then float? (cs.filter (· != '_')) else none

end Numeral
end TableQuery
