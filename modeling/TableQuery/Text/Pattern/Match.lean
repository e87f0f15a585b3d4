import TableQuery.Text.CharSet

/-! What regular expressions match. -/

namespace TableQuery.Text

/-- Where a place in a text must be. Words are of the characters of a set. -/
inductive Look
  | textStart
  | textEnd
  | lineStart (crlf : Bool)
  | lineEnd (crlf : Bool)
  | boundary (word : CharSet)
  | noBoundary (word : CharSet)
  | wordStart (word : CharSet)
  | wordEnd (word : CharSet)
  | wordStartHalf (word : CharSet)
  | wordEndHalf (word : CharSet)

/-- An expression without its way of writing. A group makes no difference to what matches. -/
inductive Pattern
  | empty
  | one (set : CharSet)
  | look (l : Look)
  | seq (a b : Pattern)
  | alt (a b : Pattern)
  | rep (a : Pattern) (least : Nat) (most : Option Nat)
  | group (a : Pattern)

namespace Pattern

/-- A place in a text: the count of characters before it, the last of these, and what follows. -/
structure Place where
  index : Nat
  before : Option Char
  after : List Char

namespace Place

def next? (set : CharSet) (p : Place) : Option Place :=
  match p.after with
  | c :: rest => if set.holds c then some ⟨p.index + 1, some c, rest⟩ else none
  | [] => none

def isBehind (set : CharSet) (p : Place) : Bool := p.before.any set.holds

def isBefore (set : CharSet) (p : Place) : Bool := p.after.head?.any set.holds

/-- A carriage return with a line feed counts as one end of a line. -/
def isLineStart (crlf : Bool) (p : Place) : Bool :=
  match p.before with
  | none => true
  | some c => c == '\n' || (crlf && c == '\r' && p.after.head? != some '\n')

def isLineEnd (crlf : Bool) (p : Place) : Bool :=
  match p.after.head? with
  | none => true
  | some c => if crlf then c == '\r' || (c == '\n' && p.before != some '\r') else c == '\n'

end Place

def holdsAt (p : Place) : Look → Bool
  | .textStart => p.before.isNone
  | .textEnd => p.after.isEmpty
  | .lineStart crlf => p.isLineStart crlf
  | .lineEnd crlf => p.isLineEnd crlf
  | .boundary w => p.isBehind w != p.isBefore w
  | .noBoundary w => p.isBehind w == p.isBefore w
  | .wordStart w => !p.isBehind w && p.isBefore w
  | .wordEnd w => p.isBehind w && !p.isBefore w
  | .wordStartHalf w => !p.isBehind w
  | .wordEndHalf w => !p.isBefore w

/-- Places of both lists in their order, each once. -/
def merge : List Place → List Place → List Place
  | [], qs => qs
  | ps, [] => ps
  | p :: ps, q :: qs =>
    if p.index < q.index then p :: merge ps (q :: qs)
    else if q.index < p.index then q :: merge (p :: ps) qs
    else p :: merge ps qs

/-- Places of the first list that are not in the second. -/
def without : List Place → List Place → List Place
  | [], _ => []
  | ps, [] => ps
  | p :: ps, q :: qs =>
    if p.index < q.index then p :: without ps (q :: qs)
    else if q.index < p.index then without (p :: ps) qs
    else without ps qs

/-- Where up to `n` further rounds from new places can end, with all places so far. -/
def spread (step : List Place → List Place) : (n : Nat) → (all new : List Place) → List Place
  | 0, all, _ => all
  | n + 1, all, new =>
    let found := without (step new) all
    if found.isEmpty then all else spread step n (merge all found) found

/-- Where exactly `n` rounds can end. A round that changes nothing stands for all that follow. -/
def exactly (step : List Place → List Place) : (n : Nat) → List Place → List Place
  | 0, ps => ps
  | n + 1, ps =>
    let qs := step ps
    if qs.map Place.index == ps.map Place.index then ps else exactly step n qs

/-- Where matches that begin at some places can end. -/
def ends : Pattern → List Place → List Place
  | empty, ps => ps
  | one set, ps => ps.filterMap (Place.next? set)
  | look l, ps => ps.filter (holdsAt · l)
  | seq a b, ps => ends b (ends a ps)
  | alt a b, ps => merge (ends a ps) (ends b ps)
  | rep a least most, ps =>
    let base := exactly (ends a) least ps
    let rounds := match most with
      | some n => n - least
      | none => (ps.map fun p => p.after.length).foldl max 0 + 1
    spread (ends a) rounds base base
  | group a, ps => ends a ps

def placesFrom (index : Nat) (before : Option Char) : List Char → List Place
  | [] => [⟨index, before, []⟩]
  | c :: cs => ⟨index, before, c :: cs⟩ :: placesFrom (index + 1) (some c) cs

/-- Whether some part of a text matches. -/
def isFound (p : Pattern) (cs : List Char) : Bool := !(ends p (placesFrom 0 none cs)).isEmpty

end Pattern
end TableQuery.Text
