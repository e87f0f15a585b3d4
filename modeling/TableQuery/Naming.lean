import TableQuery.Text.Blank
import TableQuery.Value

/-! Which values name a table or a column. -/

namespace TableQuery

/-- Strict rules take ASCII identifiers only; with `qualified`, one of them may stand before another
and a dot between. Lax rules take every text that is not blank. -/
structure Naming where
  strict : Bool := false
  qualified : Bool := false
deriving DecidableEq, Repr

namespace Naming

def isLetter (c : Char) : Bool := c.isAlpha || c == '_'

def isIdentifier : List Char → Bool
  | [] => false
  | c :: cs => isLetter c && cs.all fun d => isLetter d || d.isDigit

def isQualified (cs : List Char) : Bool :=
  match cs.dropWhile (· != '.') with
  | _ :: name => isIdentifier (cs.takeWhile (· != '.')) && isIdentifier name
  | [] => false

def acceptsChars (rules : Naming) (trimmed : List Char) : Bool :=
  !trimmed.isEmpty &&
    (!rules.strict || isIdentifier trimmed || (rules.qualified && isQualified trimmed))

/-- The trimmed name, if the value is one. -/
def name? (rules : Naming) (v : Value) : Option String := do
  let s ← v.text?
  if rules.acceptsChars (Text.trimChars s.toList) then some (Text.trim s) else none

def isValid (rules : Naming) (v : Value) : Bool := (rules.name? v).isSome

/-- The rules for columns, which are never qualified. -/
def column (rules : Naming) : Naming := { rules with qualified := false }

end Naming
end TableQuery
