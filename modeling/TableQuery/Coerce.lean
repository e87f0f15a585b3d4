import TableQuery.Issue
import TableQuery.Number.Reading
import TableQuery.Text.Blank
import TableQuery.Text.Utf8
import TableQuery.Value

/-! Reading a value as a text, an integer, a number or a truth value. Strict reading takes values of
that kind only; lax reading also takes what can stand for one without loss. -/

namespace TableQuery
namespace Coerce

/-- Texts and octets as characters, with `problem` for octets that are none. -/
def characters? (problem : Problem) : Value → Except Problem (Option String)
  | .bytes b => match Text.ofUtf8? b with
    | some s => .ok (some s)
    | none => .error problem
  | v => .ok v.text?

def text (strict : Bool) : Value → Except Problem String
  | .bytes b =>
    if strict then .error .stringType
    else match Text.ofUtf8? b with
      | some s => .ok s
      | none => .error .stringUnicode
  | .token t => if t.isText || !strict then .ok t.text else .error .stringType
  | v => match v.text? with
    | some s => .ok s
    | none => .error .stringType

/-- The most characters that are read as an integer, its sign counted. -/
def longestNumeral : Nat := 4300

/-- A minus sign or none, and a numeral without needless zeros; one that is too long is told apart
whatever follows it. -/
def plainInteger (cs : List Char) : Except Problem Int :=
  let (negative, body) := match cs with
    | '-' :: ds => (true, ds)
    | ds => (false, ds)
  let run := body.takeWhile Numeral.isDigit
  let length := run.length + if negative then 1 else 0
  if run.isEmpty || (run.head? == some '0' && 1 < run.length) then .error .intParsing
  else if longestNumeral < length then .error .intTooLarge
  else if run.length < body.length then .error .intParsing
  else .ok (if negative then -(Numeral.value run : Int) else Numeral.value run)

/-- Zeros and underscores before the first digit that counts, or before a minus sign, are left out; of
zeros before a point the last one stays. -/
def dropZeros (last : Char) : List Char → Option (List Char)
  | [] => some [last]
  | c :: cs =>
    if c = '0' ∨ c = '_' then dropZeros c cs
    else if c = '-' ∨ Numeral.isDigit c then some (c :: cs)
    else if c = '.' then some (last :: c :: cs)
    else none

def leadingZeros : List Char → Option (List Char)
  | '0' :: cs => dropZeros '0' cs
  | c :: cs => if c = '-' ∨ Numeral.isDigit c then some (c :: cs) else none
  | [] => none

/-- Zeros after a point may follow the digits of an integer. -/
def dropZeroPlaces (cs : List Char) : List Char :=
  match cs.dropWhile (· != '.') with
  | _ :: d :: ds => if (d :: ds).all (· == '0') then cs.takeWhile (· != '.') else cs
  | _ => cs

/-- An underscore may stand anywhere inside a text, but not beside another. -/
def ungrouped? (cs : List Char) : Option (List Char) :=
  let doubled := (cs.zip cs.tail).any fun p => p.1 == '_' && p.2 == '_'
  if cs.head? = some '_' ∨ cs.getLast? = some '_' ∨ doubled then none
  else some (cs.filter (· != '_'))

/-- A plus sign goes before zeros, zeros before places, and underscores last. -/
def cleanInteger? (cs : List Char) : Option (List Char) := do
  let unsigned := match Text.stripBy Text.isWhiteSpace cs with
    | '+' :: ds => ds
    | ds => ds
  let digits := dropZeroPlaces (← leadingZeros unsigned)
  some ((ungrouped? digits).getD digits)

def integerOfText (s : String) : Except Problem Int :=
  match plainInteger s.toList with
  | .error .intParsing => match cleanInteger? s.toList with
    | some cs => plainInteger cs
    | none => .error .intParsing
  | read => read

/-- Whole numbers strictly between the ends of the signed 64-bit range. -/
def integerOfFloat (x : Binary64) : Except Problem Int :=
  match x.truncate? with
  | none => .error .finiteNumber
  | some n =>
    if !x.isIntegral then .error .intFromFloat
    else if -(Int.pow 2 63) < n ∧ n < Int.pow 2 63 then .ok n
    else .error .intTooLarge

/-- An integer, or the text of a member of a vocabulary, which lax reading lets through unread. -/
inductive Whole
  | int (n : Int)
  | unread (text : String)
deriving DecidableEq, Repr

def Whole.toValue : Whole → Value
  | .int n => .int n
  | .unread s => .str s

/-- Only an integer can be compared with bounds. -/
def Whole.toInt : Whole → Except Problem Int
  | .int n => .ok n
  | .unread _ => .error .intTooLarge

def integer (strict : Bool) : Value → Except Problem Whole
  | .int n => .ok (.int n)
  | .bool b => if strict then .error .intType else .ok (.int (if b then 1 else 0))
  | .float x => if strict then .error .intType else .int <$> integerOfFloat x
  | v =>
    if strict then .error .intType
    else do match ← characters? .intParsing v, v with
      | some s, _ => .int <$> integerOfText s
      | none, .token t => .ok (.unread t.text)
      | none, _ => .error .intType

def numberOfText (s : String) : Except Problem Binary64 :=
  match Numeral.float? (Text.stripBy Text.isWhiteSpace s.toList) with
  | some x => .ok x
  | none => match (ungrouped? s.toList).bind Numeral.float? with
    | some x => .ok x
    | none => .error .floatParsing

/-- The nearest number, unless the integer is beyond them all. -/
def numberOfInt (n : Int) : Except Problem Binary64 :=
  let x := Binary64.ofInt n
  if x.isFinite then .ok x else .error .floatType

def number (strict : Bool) : Value → Except Problem Binary64
  | .float x => .ok x
  | .int n => numberOfInt n
  | .bool b => if strict then .error .floatType else numberOfInt (if b then 1 else 0)
  | v =>
    if strict then .error .floatType
    else do match ← characters? .floatParsing v with
      | some s => numberOfText s
      | none => .error .floatType

def falseWords : List String := ["0", "off", "f", "false", "n", "no"]

def trueWords : List String := ["1", "on", "t", "true", "y", "yes"]

def flagOfText (s : String) : Except Problem Bool :=
  let word := s.map Char.toLower
  if trueWords.contains word then .ok true
  else if falseWords.contains word then .ok false
  else .error .boolParsing

def flagOfInt (n : Int) : Except Problem Bool :=
  if n = 1 then .ok true else if n = 0 then .ok false else .error .boolParsing

def flag (strict : Bool) : Value → Except Problem Bool
  | .bool b => .ok b
  | v =>
    if strict then .error .boolType
    else match v with
    | .int n => if -(Int.pow 2 63) ≤ n ∧ n < Int.pow 2 63 then flagOfInt n else .error .boolType
    | .float x => match integerOfFloat x with
      | .ok n => flagOfInt n
      | .error _ => .error .boolType
    | v => do match ← characters? .boolParsing v with
      | some s => flagOfText s
      | none => .error .boolType

end Coerce
end TableQuery
