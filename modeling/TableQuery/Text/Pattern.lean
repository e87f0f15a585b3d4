import TableQuery.Text.Pattern.Meaning

/-! Regular expressions, and whether one is found in a text. -/

namespace TableQuery.Text
namespace Pattern

/-- Whether only the empty text can match. -/
def isNull : Pattern → Bool
  | empty | look _ => true
  | one _ => false
  | seq a b | alt a b => isNull a && isNull b
  | rep a _ most => isNull a || most == some 0
  | group a => isNull a

/-- About how many octets an automaton for an expression takes. A repetition is written out, but what
is empty is repeated once. -/
def cost : Pattern → Nat
  | empty | look _ => 32
  | one set => set.cost
  | seq a b => cost a + cost b
  | alt a b => cost a + cost b + 40
  | rep a least most =>
    let copies := match most with
      | some n => n
      | none => max least 1
    let copies := if isNull a then min copies 1 else copies
    copies * cost a + 40 * (copies - least + 1)
  | group a => cost a + 64

def mostCost : Nat := 10 * Nat.pow 2 20

/-- Why an expression cannot be used. -/
inductive Unusable
  | flawed (expression : String) (f : Flaw)
  | tooLarge
deriving DecidableEq, Repr

def Unusable.message : Unusable → String
  | flawed s f => f.text s
  | tooLarge => "Compiled regex exceeds size limit of " ++ toString mostCost ++ " bytes."

def ofText (s : String) : Except Unusable Pattern :=
  match Tree.ofText s >>= Tree.pattern {} with
  | .error f => .error (.flawed s f)
  | .ok (p, _) => if mostCost < p.cost then .error .tooLarge else .ok p

/-- What is wrong with an expression, if anything is. -/
def flaw? (expression : String) : Option String :=
  match ofText expression with
  | .ok _ => none
  | .error e => some e.message

/-- Whether an expression is found in a text; one that cannot be used never is. -/
def occurs (expression s : String) : Bool :=
  match ofText expression with
  | .ok p => p.isFound s.toList
  | .error _ => false

end Pattern
end TableQuery.Text
