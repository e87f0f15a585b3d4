import TableQuery.Proofs.Lists
import TableQuery.Proofs.Logging.Strings
import TableQuery.Proofs.Number.Written

/-! A reader of JSON, and what it reads of what is written. -/

namespace TableQuery
namespace Logging

/-- JSON as it is read; texts by their code points, of which some may be halves of characters. -/
inductive Decoded
  | null
  | bool (b : Bool)
  | int (n : Int)
  | float (x : Binary64)
  | str (ps : List Nat)
  | arr (items : List Decoded)
  | obj (members : List (List Nat × Decoded))

namespace Decoded

/-- What stands in front, with what is behind it. -/
abbrev Reader (α : Type) := List Char → Option (α × List Char)

def isBlank (c : Char) : Bool := c == ' ' || c == '\t' || c == '\n' || c == '\r'

def skip (cs : List Char) : List Char := cs.dropWhile isBlank

def isNumeral (c : Char) : Bool :=
  Numeral.isDigit c || c == '-' || c == '+' || c == '.' || c == 'e' || c == 'E'

/-- Digits, without a zero in front of others, then perhaps a point with digits and an exponent. -/
def unsigned? (negative : Bool) (body : List Char) : Option Decoded :=
  let whole := body.takeWhile Numeral.isDigit
  if whole.isEmpty || whole.head? == some '0' && whole != ['0'] then none
  else match body.dropWhile Numeral.isDigit with
    | [] => some (.int (if negative then -(Numeral.value whole : Int) else Numeral.value whole))
    | c :: more =>
      if c == '.' && (more.takeWhile Numeral.isDigit).isEmpty then none
      else (Numeral.decimal? negative body).map .float

def number? : List Char → Option Decoded
  | '-' :: body => unsigned? true body
  | body => unsigned? false body

def string : Reader (List Nat) := fun cs => (units cs).map fun r => (whole r.1, r.2)

def scalar : Reader Decoded
  | 'n' :: 'u' :: 'l' :: 'l' :: rest => some (.null, rest)
  | 't' :: 'r' :: 'u' :: 'e' :: rest => some (.bool true, rest)
  | 'f' :: 'a' :: 'l' :: 's' :: 'e' :: rest => some (.bool false, rest)
  | cs => (number? (cs.takeWhile isNumeral)).map fun d => (d, cs.dropWhile isNumeral)

section Brackets

variable {α : Type} (item : Reader α) (close : Char)

/-- Items with commas between them up to a bracket. -/
def items : (most : Nat) → Reader (List α)
  | 0, _ => none
  | most + 1, cs => do
    let (x, rest) ← item cs
    match skip rest with
    | [] => none
    | c :: rest =>
      if c = close then some ([x], rest)
      else if c = ',' then (items most rest).map fun r => (x :: r.1, r.2)
      else none

def bracketed : Reader (List α) := fun cs =>
  match skip cs with
  | [] => none
  | c :: rest => if c = close then some ([], rest) else items item close cs.length cs

end Brackets

def member (value : Reader Decoded) : Reader (List Nat × Decoded) := fun cs =>
  match skip cs with
  | '"' :: rest => do
    let (key, rest) ← string rest
    match skip rest with
    | ':' :: rest => (value rest).map fun r => ((key, r.1), r.2)
    | _ => none
  | _ => none

/-- Values inside no more brackets than `depth`. -/
def value : (depth : Nat) → Reader Decoded
  | 0, _ => none
  | depth + 1, cs =>
    match skip cs with
    | '"' :: rest => (string rest).map fun r => (.str r.1, r.2)
    | '[' :: rest => (bracketed (value depth) ']' rest).map fun r => (.arr r.1, r.2)
    | '\x7b' :: rest => (bracketed (member (value depth)) '\x7d' rest).map fun r => (.obj r.1, r.2)
    | cs => scalar cs

/-- A text that is one value, with blanks around it. -/
def read (s : String) : Option Decoded :=
  match value (s.length + 1) s.toList with
  | some (d, rest) => if (skip rest).isEmpty then some d else none
  | none => none

end Decoded
end Logging
end TableQuery
