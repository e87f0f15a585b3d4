import TableQuery.Text.Pattern.Flaw

/-! Regular expressions as they are written. -/

namespace TableQuery.Text
namespace Pattern

/-- A character, which an expression can give by its number in two hexadecimal digits. -/
structure Literal where
  char : Char
  byNumber : Bool := false
  span : Span
deriving DecidableEq, Repr

/-- Digits, spaces, or word characters. -/
inductive Shorthand
  | digit | space | word
deriving DecidableEq, Repr

/-- Which characters a property is asked of: those it holds of, or those with one of its values. -/
inductive Query
  | named (name : String)
  | valued (name value : String)
deriving DecidableEq, Repr

inductive SetOperation
  | intersection | difference | symmetricDifference
deriving DecidableEq, Repr

/-- Characters in brackets. -/
inductive CharClass
  | empty (span : Span)
  | literal (l : Literal)
  | range (first last : Literal) (span : Span)
  | ascii (name : String) (negated : Bool) (span : Span)
  | shorthand (s : Shorthand) (negated : Bool) (span : Span)
  | property (q : Query) (negated : Bool) (span : Span)
  | bracketed (inner : CharClass) (negated : Bool) (span : Span)
  | union (items : List CharClass) (span : Span)
  | binary (o : SetOperation) (left right : CharClass) (span : Span)

def CharClass.span : CharClass → Span
  | empty s | range _ _ s | ascii _ _ s | shorthand _ _ s | property _ _ s | bracketed _ _ s
  | union _ s | binary _ _ _ s => s
  | literal l => l.span

/-- Items in their order as one class. -/
def CharClass.ofItems (place : Position) : List CharClass → CharClass
  | [] => empty (.empty place)
  | [c] => c
  | c :: cs => union (c :: cs) (c.span.through ((c :: cs).getLastD c).span)

/-- Places between characters. -/
inductive Anchor
  | lineStart | lineEnd | textStart | textEnd
  | boundary | noBoundary | wordStart | wordEnd | wordStartHalf | wordEndHalf
deriving DecidableEq, Repr

inductive Flag
  | ignoreCase | multiLine | dotAll | swapGreed | unicode | crlf | verbose
deriving DecidableEq, Repr

/-- Flags that are set or cleared. -/
abbrev FlagChange := List (Flag × Bool)

inductive Tree
  | empty (span : Span)
  | flags (change : FlagChange) (span : Span)
  | literal (l : Literal)
  | dot (span : Span)
  | anchor (a : Anchor) (span : Span)
  | charClass (c : CharClass)
  | repeated (t : Tree) (least : Nat) (most : Option Nat) (span : Span)
  | group (change : FlagChange) (captures : Bool) (t : Tree) (span : Span)
  | alternatives (ts : List Tree) (span : Span)
  | sequence (ts : List Tree) (span : Span)

namespace Tree

def span : Tree → Span
  | empty s | flags _ s | dot s | anchor _ s | repeated _ _ _ s | group _ _ _ s | alternatives _ s
  | sequence _ s => s
  | literal l => l.span
  | charClass c => c.span

/-- Neither nothing nor a change of flags can be repeated. -/
def isRepeatable : Tree → Bool
  | empty _ | flags .. => false
  | _ => true

def ofItems (span : Span) : List Tree → Tree
  | [] => empty span
  | [t] => t
  | ts => sequence ts span

/-- One or more trees as alternatives. -/
def ofAlternatives (span : Span) : List Tree → Tree
  | [t] => t
  | ts => alternatives ts span

end Tree

/-! The first place where an expression is nested too deep, from the outside in. -/

def tooDeep (depth : Nat) (span : Span) (inner : Option Flaw) : Option Flaw :=
  if deepest ≤ depth then some { cause := .nestedTooDeep, span } else inner

mutual

def CharClass.deepFlaw? (depth : Nat) : CharClass → Option Flaw
  | .bracketed c _ s => tooDeep depth s (c.deepFlaw? (depth + 1))
  | .union cs s => tooDeep depth s (deepFlawIn? (depth + 1) cs)
  | .binary _ a b s =>
    tooDeep depth s ((a.deepFlaw? (depth + 1)).or (b.deepFlaw? (depth + 1)))
  | _ => none

def deepFlawIn? (depth : Nat) : List CharClass → Option Flaw
  | [] => none
  | c :: cs => (c.deepFlaw? depth).or (deepFlawIn? depth cs)

end

mutual

def Tree.deepFlaw? (depth : Nat) : Tree → Option Flaw
  | .charClass c => c.deepFlaw? depth
  | .repeated t _ _ s | .group _ _ t s => tooDeep depth s (t.deepFlaw? (depth + 1))
  | .alternatives ts s | .sequence ts s => tooDeep depth s (deepFlawAmong? (depth + 1) ts)
  | _ => none

def deepFlawAmong? (depth : Nat) : List Tree → Option Flaw
  | [] => none
  | t :: ts => (t.deepFlaw? depth).or (deepFlawAmong? depth ts)

end

end Pattern
end TableQuery.Text
