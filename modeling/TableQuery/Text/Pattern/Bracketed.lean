import TableQuery.Text.CharSet
import TableQuery.Text.Pattern.Reader

/-! Reading characters in brackets. -/

namespace TableQuery.Text
namespace Pattern

/-- Items of one bracket, the latest first, and what is left of an operation before them. -/
structure Items where
  items : List CharClass := []
  place : Position
  pending : Option (SetOperation × CharClass) := none

namespace Items

def push (is : Items) (c : CharClass) : Items := { is with items := c :: is.items }

def close (is : Items) : CharClass :=
  let right := CharClass.ofItems is.place is.items.reverse
  match is.pending with
  | none => right
  | some (o, left) => .binary o left right (left.span.through right.span)

/-- All items so far become the left side of an operation. -/
def operate (is : Items) (o : SetOperation) (place : Position) : Items :=
  { place, pending := some (o, is.close) }

end Items

/-- An open bracket: the items around it, and its beginning. -/
structure Bracket where
  outer : Items
  negated : Bool
  span : Span

namespace Reader

/-- Hyphens at the beginning of a bracket stand for themselves. -/
def hyphens (start : Position) : (fuel : Nat) → Items → Reader Items
  | 0, is => pure is
  | fuel + 1, is => do
    if (← head?) != some '-' then return is
    let l : Literal := { char := '-', span := ← headSpan }
    if !(← nextSpaced) then fail .classUnclosed (.empty start)
    hyphens start fuel (is.push (.literal l))

/-- The beginning of a bracket. A closing bracket that comes first stands for itself. -/
def openBracket (outer : Items) : Reader (Items × Bracket) := do
  let start ← place
  let unclosed : Reader Unit := do fail .classUnclosed ⟨start, ← place⟩
  if !(← nextSpaced) then unclosed
  let negated := (← head?) = some '^'
  if negated then
    if !(← nextSpaced) then unclosed
  let mut items ← hyphens start (← get).rest.length { place := ← place }
  if items.items.isEmpty && (← head?) = some ']' then
    items := items.push (.literal { char := ']', span := ← headSpan })
    if !(← nextSpaced) then unclosed
  return (items, { outer, negated, span := ⟨start, ← place⟩ })

/-- A set of ASCII characters by its name between colons, inside brackets of its own. -/
def asciiSet? : Reader (Option CharClass) := do
  let before ← get
  match before.rest with
  | '[' :: ':' :: cs =>
    let negated := cs.head? = some '^'
    let cs := if negated then cs.tail else cs
    let name := cs.takeWhile (· != ':')
    match cs.dropWhile (· != ':'), CharSet.asciiNamed? (String.ofList name) with
    | ':' :: ']' :: _, some _ =>
      let whole := String.ofList (['[', ':'] ++ (if negated then ['^'] else []) ++ name ++ [':', ']'])
      let _ ← take whole
      return some (.ascii (String.ofList name) negated ⟨before.place, ← place⟩)
    | _, _ => return none
  | _ => return none

/-- An escape, or a character that stands for itself. -/
def bracketAtom (c : Char) : Reader Atom := do
  if c = '\\' then escape else return .literal (← verbatim c)

def itemOf (a : Atom) : Reader CharClass :=
  match a with
  | .literal l => pure (.literal l)
  | .charClass c => pure c
  | a => fail .classEscape a.span

def boundOf (a : Atom) : Reader Literal :=
  match a with
  | .literal l => pure l
  | a => fail .classRangeBound a.span

/-- An item of a bracket, or a range between two of them. -/
def bracketItem (b : Bracket) (c : Char) : Reader CharClass := do
  let first ← bracketAtom c
  skipSpace
  if ← isDone then fail .classUnclosed b.span
  let after ← secondSpaced?
  if (← head?) != some '-' || after == some ']' || after == some '-' then return ← itemOf first
  if !(← nextSpaced) then fail .classUnclosed b.span
  let last ← bracketAtom ((← head?).getD '\\')
  let span := first.span.through last.span
  let low ← boundOf first
  let high ← boundOf last
  if high.char < low.char then fail .classRangeOrder span
  return .range low high span

/-- Two marks that stand for an operation. -/
def operation? (c : Char) : Option SetOperation :=
  match c with
  | '&' => some .intersection
  | '-' => some .difference
  | '~' => some .symmetricDifference
  | _ => none

/-- What is inside the innermost of some brackets, and so on up to the end of the outermost. -/
def brackets : (fuel : Nat) → Items → Bracket → List Bracket → Reader CharClass
  | 0, is, b, _ => pure (.bracketed is.close b.negated b.span)
  | fuel + 1, is, b, outer => do
    skipSpace
    match ← head? with
    | none => fail .classUnclosed b.span
    | some '[' =>
      match ← asciiSet? with
      | some c => brackets fuel (is.push c) b outer
      | none =>
        let (inner, opened) ← openBracket is
        brackets fuel inner opened (b :: outer)
    | some ']' =>
      let _ ← next
      let c : CharClass := .bracketed is.close b.negated ⟨b.span.start, ← place⟩
      match outer with
      | [] => return c
      | o :: outer => brackets fuel (b.outer.push c) o outer
    | some c =>
      match operation? c, (← second?) == some c with
      | some o, true =>
        let _ ← next
        let _ ← next
        brackets fuel (is.operate o (← place)) b outer
      | _, _ => brackets fuel (is.push (← bracketItem b c)) b outer

def bracketed : Reader CharClass := do
  let (items, b) ← openBracket { place := ← place }
  brackets ((← get).rest.length + 1) items b []

end Reader
end Pattern
end TableQuery.Text
