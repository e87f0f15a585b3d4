/-! What is wrong with a regular expression, and where. -/

namespace TableQuery.Text
namespace Pattern

/-- A place in an expression. Lines and columns are counted from one. -/
structure Position where
  index : Nat := 0
  line : Nat := 1
  column : Nat := 1
deriving DecidableEq, Repr

def Position.after (p : Position) (c : Char) : Position :=
  if c = '\n' then ⟨p.index + 1, p.line + 1, 1⟩ else ⟨p.index + 1, p.line, p.column + 1⟩

/-- What stands from one place up to another. -/
structure Span where
  start : Position
  stop : Position
deriving DecidableEq, Repr

namespace Span

def empty (p : Position) : Span := ⟨p, p⟩

/-- From the start of one span to the end of another. -/
def through (s t : Span) : Span := ⟨s.start, t.stop⟩

def isOneLine (s : Span) : Bool := s.start.line == s.stop.line

end Span

/-- Causes that lie in how an expression is written, and after them those that lie in what it asks
for. -/
inductive Cause
  | classEscape
  | classRangeOrder
  | classRangeBound
  | classUnclosed
  | decimalTooLarge
  | hexEmpty
  | hexNoCharacter
  | hexDigit
  | escapeUnfinished
  | escapeUnknown
  | flagsDangling
  | flagTwice
  | flagsNegatedTwice
  | flagsUnfinished
  | flagUnknown
  | nameTwice
  | nameEmpty
  | nameCharacter
  | nameUnfinished
  | groupUnclosed
  | groupUnopened
  | nestedTooDeep
  | countOrder
  | countEmpty
  | countUnclosed
  | nothingToRepeat
  | boundaryUnclosed
  | boundaryUnknown
  | boundaryUnfinished
  | propertySyntax
  | backreference
  | lookAround
  | unicodeOff
  | notText
  | propertyUnknown
  | propertyValueUnknown
deriving DecidableEq, Repr

/-- How deep groups, classes and repetitions can be nested. -/
def deepest : Nat := 250

def Cause.message : Cause → String
  | classEscape => "invalid escape sequence found in character class"
  | classRangeOrder => "invalid character class range, the start must be <= the end"
  | classRangeBound => "invalid range boundary, must be a literal"
  | classUnclosed => "unclosed character class"
  | decimalTooLarge => "decimal literal invalid"
  | hexEmpty => "hexadecimal literal empty"
  | hexNoCharacter => "hexadecimal literal is not a Unicode scalar value"
  | hexDigit => "invalid hexadecimal digit"
  | escapeUnfinished => "incomplete escape sequence, reached end of pattern prematurely"
  | escapeUnknown => "unrecognized escape sequence"
  | flagsDangling => "dangling flag negation operator"
  | flagTwice => "duplicate flag"
  | flagsNegatedTwice => "flag negation operator repeated"
  | flagsUnfinished => "expected flag but got end of regex"
  | flagUnknown => "unrecognized flag"
  | nameTwice => "duplicate capture group name"
  | nameEmpty => "empty capture group name"
  | nameCharacter => "invalid capture group character"
  | nameUnfinished => "unclosed capture group name"
  | groupUnclosed => "unclosed group"
  | groupUnopened => "unopened group"
  | nestedTooDeep =>
    "exceed the maximum number of nested parentheses/brackets (" ++ toString deepest ++ ")"
  | countOrder => "invalid repetition count range, the start must be <= the end"
  | countEmpty => "repetition quantifier expects a valid decimal"
  | countUnclosed => "unclosed counted repetition"
  | nothingToRepeat => "repetition operator missing expression"
  | boundaryUnclosed =>
    "special word boundary assertion is either unclosed or contains an invalid character"
  | boundaryUnknown => "unrecognized special word boundary assertion, " ++
    "valid choices are: start, end, start-half or end-half"
  | boundaryUnfinished => "found either the beginning of a special word boundary or a bounded " ++
    "repetition on a \\b with an opening brace, but no closing brace"
  | propertySyntax => "invalid Unicode character class"
  | backreference => "backreferences are not supported"
  | lookAround => "look-around, including look-ahead and look-behind, is not supported"
  | unicodeOff => "Unicode not allowed here"
  | notText => "pattern can match invalid UTF-8"
  | propertyUnknown => "Unicode property not found"
  | propertyValueUnknown => "Unicode property value not found"

/-- A cause with its place, and the place of what it clashes with. -/
structure Flaw where
  cause : Cause
  span : Span
  other : Option Span := none
deriving DecidableEq, Repr

namespace Flaw

/-- The places of a flaw in their order. -/
def spans (f : Flaw) : List Span :=
  match f.other with
  | none => [f.span]
  | some s => if s.start.index < f.span.start.index then [s, f.span] else [f.span, s]

def spaces (n : Nat) : String := String.ofList (List.replicate n ' ')

/-- Marks under spans of one line, of which `column` columns are written already. -/
def marks : (column : Nat) → List Span → String
  | _, [] => ""
  | column, s :: ss =>
    let width := max 1 (s.stop.column - s.start.column)
    let before := s.start.column - 1 - column
    spaces before ++ String.ofList (List.replicate width '^') ++ marks (column + before + width) ss

/-- Lines of a text. The end of the last one may be left out, and a carriage return is no part of
any. -/
def linesOf (s : String) : List String :=
  let ls := s.splitOn "\n"
  let ls := if ls.getLast? = some "" then ls.dropLast else ls
  ls.map fun l => if l.endsWith "\r" then String.ofList l.toList.dropLast else l

/-- Lines with marks below them, after a number each if `numbered` columns are kept for it. -/
def annotated (numbered : Option Nat) (spans : List Span) (lines : List String) : List String :=
  (lines.mapIdx fun i line =>
    let here := spans.filter fun s => s.isOneLine && s.start.line == i + 1
    let number := toString (i + 1)
    let (head, margin) := match numbered with
      | some width => (spaces (width - number.length) ++ number ++ ": ", width + 2)
      | none => (spaces 4, 4)
    (head ++ line) :: if here.isEmpty then [] else [spaces margin ++ marks 0 here]).flatten

/-- An expression with its flaw marked. One of several lines stands between rules, with what spans
more than one of them below. -/
def text (expression : String) (f : Flaw) : String :=
  let lines := linesOf expression
  let error := "error: " ++ f.cause.message
  let title := "regex parse error:"
  if !expression.toList.contains '\n' then
    "\n".intercalate (title :: annotated none f.spans lines ++ [error])
  else
    let count := lines.length + if expression.endsWith "\n" then 1 else 0
    let numbered := if count ≤ 1 then none else some (toString count).length
    let rule := String.ofList (List.replicate 79 '~')
    let long := (f.spans.filter (!·.isOneLine)).map fun s =>
      "on line " ++ toString s.start.line ++ " (column " ++ toString s.start.column ++
        ") through line " ++ toString s.stop.line ++ " (column " ++ toString (s.stop.column - 1) ++
        ")"
    "\n".intercalate (title :: rule :: annotated numbered f.spans lines ++ rule :: long ++ [error])

end Flaw
end Pattern
end TableQuery.Text
