import TableQuery.Text.Pattern.Bracketed

/-! Reading a whole regular expression. -/

namespace TableQuery.Text
namespace Pattern

/-- Alternatives of one level: those that are complete, and the parts of the current one, the latest
first. -/
structure Level where
  complete : List Tree := []
  start : Position
  parts : List Tree := []
  partsStart : Position

namespace Level

def beginningAt (p : Position) : Level := { start := p, partsStart := p }

def push (l : Level) (t : Tree) : Level := { l with parts := t :: l.parts }

def current (l : Level) (stop : Position) : Tree := .ofItems ⟨l.partsStart, stop⟩ l.parts.reverse

/-- Everything up to a place as one tree. -/
def close (l : Level) (stop : Position) : Tree :=
  .ofAlternatives ⟨l.start, stop⟩ (l.complete ++ [l.current stop])

/-- A further alternative begins behind the mark. -/
def alternate (l : Level) (mark behind : Position) : Level :=
  { l with complete := l.complete ++ [l.current mark], parts := [], partsStart := behind }

end Level

/-- An open group: the level around it, and whether that one is verbose. -/
structure Enclosing where
  level : Level
  change : FlagChange
  captures : Bool
  span : Span
  verbose : Bool

namespace Reader

def treeOf : Atom → Tree
  | .literal l => .literal l
  | .charClass c => .charClass c
  | .anchor a s => .anchor a s
  | .dot s => .dot s

def setVerbose (verbose : Bool) : Reader Unit := modify fun r => { r with verbose }

/-- The part that a repetition is of, and the level without it. -/
def repeatable (l : Level) : Reader (Tree × Level) := do
  match l.parts with
  | t :: parts =>
    if t.isRepeatable then return (t, { l with parts })
    else fail .nothingToRepeat (.empty (← place))
  | [] => fail .nothingToRepeat (.empty (← place))

/-- A repetition by a single mark, after which a question mark makes it reluctant. -/
def repeatBy (l : Level) (least : Nat) (most : Option Nat) : Reader Level := do
  let (t, l) ← repeatable l
  if (← next) && (← head?) = some '?' then
    let _ ← next
  return l.push (.repeated t least most ⟨t.span.start, ← place⟩)

/-- A repetition by counts in braces. -/
def repeatCounted (l : Level) : Reader Level := do
  let start ← place
  let (t, l) ← repeatable l
  let (least, most) ← counts
  if (← nextSpaced) && (← head?) = some '?' then
    let _ ← next
  if most.any (· < least) then fail .countOrder ⟨start, ← place⟩
  return l.push (.repeated t least most ⟨t.span.start, ← place⟩)

/-- Goes through an expression with its groups that are still open; each round leaves less of it than
`fuel`. -/
def levels : (fuel : Nat) → Level → List Enclosing → Reader Tree
  | 0, l, _ => return l.close (← place)
  | fuel + 1, l, enclosing => do
    skipSpace
    match ← head? with
    | none => match enclosing with
      | [] => return l.close (← place)
      | e :: _ => fail .groupUnclosed e.span
    | some '(' =>
      match ← opening with
      | .change change span =>
        if let some v := change.lookup .verbose then setVerbose v
        levels fuel (l.push (.flags change span)) enclosing
      | .group change captures span =>
        let verbose := (← get).verbose
        setVerbose ((change.lookup .verbose).getD verbose)
        levels fuel (.beginningAt (← place)) ({ level := l, change, captures, span, verbose } :: enclosing)
    | some ')' => match enclosing with
      | [] => fail .groupUnopened (← headSpan)
      | e :: enclosing =>
        let inner := l.close (← place)
        setVerbose e.verbose
        let _ ← next
        let group : Tree := .group e.change e.captures inner ⟨e.span.start, ← place⟩
        levels fuel (e.level.push group) enclosing
    | some '|' =>
      let mark ← place
      let _ ← next
      levels fuel (l.alternate mark (← place)) enclosing
    | some '[' => levels fuel (l.push (.charClass (← bracketed))) enclosing
    | some '?' => levels fuel (← repeatBy l 0 (some 1)) enclosing
    | some '*' => levels fuel (← repeatBy l 0 none) enclosing
    | some '+' => levels fuel (← repeatBy l 1 none) enclosing
    | some '\x7b' => levels fuel (← repeatCounted l) enclosing
    | some c => levels fuel (l.push (treeOf (← atom c))) enclosing

end Reader

/-- An expression as a tree, unless it is ill-formed or nested too deep. -/
def Tree.ofText (s : String) : Except Flaw Tree := do
  let start : Position := {}
  let cs := s.toList
  let (t, _) ← (Reader.levels (cs.length + 1) (.beginningAt start) []).run { rest := cs }
  match t.deepFlaw? 0 with
  | some f => throw f
  | none => return t

end Pattern
end TableQuery.Text
