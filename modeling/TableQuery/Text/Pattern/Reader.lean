import TableQuery.Text.Hex
import TableQuery.Text.Pattern.Syntax
import TableQuery.Text.Property

/-! Reading the parts of a regular expression from left to right. -/

namespace TableQuery.Text
namespace Pattern

/-- What is left of an expression. In a verbose one spaces and comments are skipped. -/
structure Reading where
  rest : List Char
  place : Position := {}
  verbose : Bool := false
  names : List (String × Span) := []

abbrev Reader := StateT Reading (Except Flaw)

namespace Reader

def fail {α : Type} (cause : Cause) (span : Span) (other : Option Span := none) : Reader α :=
  throw { cause, span, other }

def place : Reader Position := return (← get).place

def head? : Reader (Option Char) := return (← get).rest.head?

def isDone : Reader Bool := return (← get).rest.isEmpty

/-- The span of the next character. -/
def headSpan : Reader Span := do
  let r ← get
  return ⟨r.place, match r.rest with
    | c :: _ => r.place.after c
    | [] => r.place⟩

/-- Goes past a character, and tells whether another one follows. -/
def next : Reader Bool := modifyGet fun r =>
  match r.rest with
  | [] => (false, r)
  | c :: cs => (!cs.isEmpty, { r with rest := cs, place := r.place.after c })

/-- What is left behind spaces, and comments up to the ends of their lines. -/
def afterSpace : (comment : Bool) → List Char → Position → List Char × Position
  | _, [], p => ([], p)
  | true, c :: cs, p => afterSpace (c != '\n') cs (p.after c)
  | false, c :: cs, p =>
    if c = '#' then afterSpace true cs (p.after c)
    else if isWhiteSpace c then afterSpace false cs (p.after c)
    else (c :: cs, p)

def skipSpace : Reader Unit := modify fun r =>
  if r.verbose then
    let (rest, place) := afterSpace false r.rest r.place
    { r with rest, place }
  else r

/-- Goes past a character and the space after it, and tells whether another character follows. -/
def nextSpaced : Reader Bool := do
  if ← next then
    skipSpace
    return !(← isDone)
  else return false

/-- Goes past a text, if it comes next. -/
def take (s : String) : Reader Bool := modifyGet fun r =>
  if s.toList.isPrefixOf r.rest then
    (true, { r with rest := r.rest.drop s.length, place := s.toList.foldl Position.after r.place })
  else (false, r)

/-- The character after the next one. -/
def second? : Reader (Option Char) := return (← get).rest.tail.head?

/-- The character after the next one and the space there; of a comment the first character counts. -/
def secondSpaced? : Reader (Option Char) := do
  let r ← get
  let dropSpace (cs : List Char) := cs.dropWhile isWhiteSpace
  if !r.verbose then return r.rest.tail.head?
  match dropSpace r.rest.tail with
  | '#' :: cs => return (dropSpace cs).head?
  | cs => return cs.head?

/-- Goes past characters of a kind, each with the space after it if `spaced`. -/
def takeUpTo (p : Char → Bool) (spaced : Bool) : (fuel : Nat) → Reader (List Char)
  | 0 => pure []
  | fuel + 1 => do
    match ← head? with
    | some c =>
      if p c then
        let _ ← if spaced then nextSpaced else next
        return c :: (← takeUpTo p spaced fuel)
      else pure []
    | none => pure []

def takeWhile (p : Char → Bool) (spaced : Bool) : Reader (List Char) := do
  takeUpTo p spaced (← get).rest.length

/-! Characters by number. -/

def hexDigits : (count : Nat) → (isFirst : Bool) → Reader (List Char)
  | 0, _ => pure []
  | count + 1, isFirst => do
    if !isFirst then
      if !(← nextSpaced) then fail .escapeUnfinished (.empty (← place))
    match ← head? with
    | some c =>
      if (hexDigit? c).isNone then fail .hexDigit (← headSpan)
      return c :: (← hexDigits count false)
    | none => fail .escapeUnfinished (.empty (← place))

/-- Digits up to a closing brace, which is not passed. -/
def hexInBraces : (fuel : Nat) → Reader (List Char)
  | 0 => pure []
  | fuel + 1 => do
    if !(← nextSpaced) then return []
    match ← head? with
    | some c =>
      if c = '\x7d' then return []
      if (hexDigit? c).isNone then fail .hexDigit (← headSpan)
      return c :: (← hexInBraces fuel)
    | none => return []

def charOf (digits : List Char) (span : Span) : Reader Char :=
  let n := hexValue digits
  if h : n.isValidChar then pure (Char.ofNatAux n h) else fail .hexNoCharacter span

/-- A character by its number in two, four or eight digits, or in braces. -/
def numbered (start : Position) (count : Nat) : Reader Literal := do
  if !(← nextSpaced) then fail .escapeUnfinished (.empty (← place))
  if (← head?) = some '\x7b' then
    let brace ← place
    let first := (← headSpan).stop
    let digits ← hexInBraces (← get).rest.length
    if ← isDone then fail .escapeUnfinished ⟨brace, ← place⟩
    let last ← place
    let _ ← nextSpaced
    if digits.isEmpty then fail .hexEmpty ⟨brace, ← place⟩
    let char ← charOf digits ⟨first, last⟩
    return { char, span := ⟨start, ← place⟩ }
  else
    let first ← place
    let digits ← hexDigits count true
    let _ ← nextSpaced
    let char ← charOf digits ⟨first, ← place⟩
    return { char, byNumber := count = 2, span := ⟨start, ← place⟩ }

/-! Properties. -/

/-- The first place of a text in characters, with what stands before and after it. -/
def split? (mark : List Char) : List Char → Option (List Char × List Char)
  | [] => none
  | c :: cs =>
    if mark.isPrefixOf (c :: cs) then some ([], (c :: cs).drop mark.length)
    else (split? mark cs).map fun r => (c :: r.1, r.2)

/-- The query between the braces, and whether it is negated. -/
def queryOf (cs : List Char) : Query × Bool :=
  let valued (r : List Char × List Char) : Query := .valued (String.ofList r.1) (String.ofList r.2)
  match split? ['!', '='] cs, split? [':'] cs, split? ['='] cs with
  | some r, _, _ => (valued r, true)
  | none, some r, _ | none, none, some r => (valued r, false)
  | none, none, none => (.named (String.ofList cs), false)

def inBraces : (fuel : Nat) → Reader (List Char)
  | 0 => pure []
  | fuel + 1 => do
    if !(← nextSpaced) then return []
    match ← head? with
    | some c => if c = '\x7d' then return [] else return c :: (← inBraces fuel)
    | none => return []

/-- A property after the letter that begins it: a single letter, or a query in braces. -/
def property (start : Position) (negated : Bool) : Reader CharClass := do
  if !(← nextSpaced) then fail .escapeUnfinished (.empty (← place))
  match ← head? with
  | some '\x7b' =>
    let cs ← inBraces (← get).rest.length
    if ← isDone then fail .escapeUnfinished (.empty (← place))
    let _ ← next
    let (q, flipped) := queryOf cs
    return .property q (negated != flipped) ⟨start, ← place⟩
  | some c =>
    if c = '\\' then fail .propertySyntax (← headSpan)
    let _ ← nextSpaced
    return .property (.named (String.singleton c)) negated ⟨start, ← place⟩
  | none => fail .escapeUnfinished (.empty (← place))

/-! Escapes. -/

/-- What a part of an expression or of a class can be. -/
inductive Atom
  | literal (l : Literal)
  | charClass (c : CharClass)
  | anchor (a : Anchor) (span : Span)
  | dot (span : Span)

def Atom.span : Atom → Span
  | literal l => l.span
  | charClass c => c.span
  | anchor _ s | dot s => s

/-- Marks and all other ASCII characters stand for themselves behind a backslash, letters, digits and
angle brackets apart. -/
def isEscapable (c : Char) : Bool :=
  c.toNat < 0x80 && !c.isAlphanum && c != '<' && c != '>'

def controls : List (Char × Char) :=
  [('a', Char.ofNat 7), ('f', Char.ofNat 12), ('t', '\t'), ('n', '\n'), ('r', '\r'),
   ('v', Char.ofNat 11)]

def anchors : List (Char × Anchor) :=
  [('A', .textStart), ('z', .textEnd), ('B', .noBoundary), ('<', .wordStart), ('>', .wordEnd)]

def shorthands : List (Char × Shorthand) := [('d', .digit), ('s', .space), ('w', .word)]

def boundaries : List (String × Anchor) :=
  [("start", .wordStart), ("end", .wordEnd), ("start-half", .wordStartHalf),
   ("end-half", .wordEndHalf)]

/-- A boundary, whose kind can follow in braces. What else is in them is left for a repetition. -/
def boundary (start : Position) : Reader Atom := do
  let plain : Atom := .anchor .boundary ⟨start, ← place⟩
  if (← head?) != some '\x7b' then return plain
  let isPart (c : Char) : Bool := c.isAlpha || c == '-'
  let before ← get
  if !(← nextSpaced) then fail .boundaryUnfinished ⟨start, ← place⟩
  let first ← place
  if !(← head?).any isPart then
    set before
    return plain
  let name ← takeWhile isPart true
  if (← head?) != some '\x7d' then fail .boundaryUnclosed ⟨before.place, ← place⟩
  let last ← place
  let _ ← next
  match boundaries.lookup (String.ofList name) with
  | some a => return .anchor a ⟨start, ← place⟩
  | none => fail .boundaryUnknown ⟨first, last⟩

/-- What a backslash begins. -/
def escape : Reader Atom := do
  let start ← place
  if !(← next) then fail .escapeUnfinished ⟨start, ← place⟩
  let c := (← head?).getD '\\'
  let behind := (← headSpan).stop
  if c.isDigit then fail .backreference ⟨start, behind⟩
  match c with
  | 'x' => return .literal (← numbered start 2)
  | 'u' => return .literal (← numbered start 4)
  | 'U' => return .literal (← numbered start 8)
  | 'p' => return .charClass (← property start false)
  | 'P' => return .charClass (← property start true)
  | _ =>
    let _ ← next
    let span : Span := ⟨start, behind⟩
    if isEscapable c then return .literal { char := c, span }
    if c = 'b' then return ← boundary start
    match controls.lookup c, anchors.lookup c, shorthands.lookup c.toLower with
    | some d, _, _ => return .literal { char := d, span }
    | none, some a, _ => return .anchor a span
    | none, none, some s => return .charClass (.shorthand s c.isUpper span)
    | none, none, none => fail .escapeUnknown span

def verbatim (c : Char) : Reader Literal := do
  let span ← headSpan
  let _ ← next
  return { char := c, span }

/-- An escape, a dot, an anchor, or a character that stands for itself. -/
def atom (c : Char) : Reader Atom := do
  let span ← headSpan
  match c with
  | '\\' => escape
  | '.' => do let _ ← next; return .dot span
  | '^' => do let _ ← next; return .anchor .lineStart span
  | '$' => do let _ ← next; return .anchor .lineEnd span
  | c => return .literal (← verbatim c)

/-! Counts. -/

/-- The largest number that is read. -/
def mostCount : Nat := Nat.pow 2 32 - 1

/-- A number with spaces around it; what is wrong with it is told as part of the result. -/
def decimal : Reader (Except Flaw Nat) := do
  let _ ← takeWhile isWhiteSpace false
  let start ← place
  let digits ← takeWhile Char.isDigit true
  let span : Span := ⟨start, ← place⟩
  let _ ← takeWhile isWhiteSpace true
  let n := total digits
  if digits.isEmpty then return .error { cause := .countEmpty, span }
  else if mostCount < n then return .error { cause := .decimalTooLarge, span }
  else return .ok n
where
  total (ds : List Char) : Nat := ds.foldl (fun n c => 10 * n + (c.toNat - 48)) 0

/-- How often something is repeated, from the opening brace to the closing one, which is not passed. -/
def counts : Reader (Nat × Option Nat) := do
  let start ← place
  let unclosed {α : Type} : Reader α := do fail .countUnclosed ⟨start, ← place⟩
  if !(← nextSpaced) then unclosed
  let least ← decimal
  if ← isDone then unclosed
  let range ←
    if (← head?) = some ',' then do
      if !(← nextSpaced) then unclosed
      if (← head?) = some '\x7d' then do
        let n ← least
        pure (n, none)
      else do
        let n ← least
        let m ← (← decimal : Except Flaw Nat)
        pure (n, some m)
    else do
      let n ← least
      pure (n, some n)
  if (← head?) != some '\x7d' then unclosed
  return range

/-! Groups. -/

def flagOf? (c : Char) : Option Flag :=
  [('i', Flag.ignoreCase), ('m', .multiLine), ('s', .dotAll), ('U', .swapGreed), ('u', .unicode),
   ('R', .crlf), ('x', .verbose)].lookup c

/-- Flags up to a colon or closing bracket: those read so far, the place of a minus sign among them
and whether it came last. -/
def flags : (fuel : Nat) → List (Flag × Bool × Span) → (minus : Option Span) → (isLast : Bool) →
    Reader FlagChange
  | 0, _, _, _ => pure []
  | fuel + 1, seen, minus, isLast => do
    let span ← headSpan
    match ← head? with
    | none => fail .flagsUnfinished (.empty (← place))
    | some c =>
      if c = ':' ∨ c = ')' then
        match minus, isLast with
        | some s, true => fail .flagsDangling s
        | _, _ => return seen.map fun f => (f.1, f.2.1)
      else if c = '-' then
        if minus.isSome then fail .flagsNegatedTwice span minus
        if !(← next) then fail .flagsUnfinished (.empty (← place))
        flags fuel seen (some span) true
      else match flagOf? c with
        | none => fail .flagUnknown span
        | some f =>
          if let some other := seen.lookup f then fail .flagTwice span other.2
          if !(← next) then fail .flagsUnfinished (.empty (← place))
          flags fuel (seen ++ [(f, minus.isNone, span)]) minus false

def isLetter (c : Char) : Bool := Property.alphabetic.holds c

def nameStart (c : Char) : Bool := c == '_' || isLetter c

def namePart (c : Char) : Bool :=
  nameStart c || c == '.' || c == '[' || c == ']' || (category c).isNumber

/-- The name of a group, up to the bracket that closes it. -/
def groupName : Reader Unit := do
  let start ← place
  if ← isDone then fail .nameUnfinished (.empty start)
  let first ← head?
  let rest := if first.any nameStart then takeWhile namePart false else pure []
  let name := String.ofList (← rest)
  let span : Span := ⟨start, ← place⟩
  match ← head? with
  | none => fail .nameUnfinished (.empty (← place))
  | some c =>
    if c != '>' then fail .nameCharacter (← headSpan)
    let _ ← next
    if name.isEmpty then fail .nameEmpty (.empty start)
    if let some other := (← get).names.lookup name then fail .nameTwice span other
    modify fun r => { r with names := (name, span) :: r.names }

/-- What an opening bracket begins: a change of flags, or a group. -/
inductive Opening
  | change (c : FlagChange) (span : Span)
  | group (c : FlagChange) (captures : Bool) (span : Span)

def takeAny : List String → Reader Bool
  | [] => pure false
  | s :: ss => do if ← take s then return true else takeAny ss

def opening : Reader Opening := do
  let span ← headSpan
  let _ ← next
  skipSpace
  if ← takeAny ["?=", "?!", "?<=", "?<!"] then fail .lookAround ⟨span.start, ← place⟩
  let inner ← place
  if ← takeAny ["?P<", "?<"] then
    groupName
    return .group [] true span
  if !(← take "?") then return .group [] true span
  if ← isDone then fail .groupUnclosed span
  let start ← place
  let change ← flags ((← get).rest.length + 1) [] none false
  let isEmpty := (← place) == start
  let isChange := (← head?) = some ')'
  let _ ← next
  if !isChange then return .group change false span
  if isEmpty then fail .nothingToRepeat (.empty inner)
  return .change change ⟨span.start, ← place⟩

end Reader
end Pattern
end TableQuery.Text
