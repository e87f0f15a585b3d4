import TableQuery.Fault

/-! What comes of checking a value. -/

namespace TableQuery
namespace Schema

/-- A value of a type. Instances of models know which of their fields were given, and may hold
others. -/
inductive Checked
  | value (v : Value)
  | list (items : List Checked)
  | instance (model : String) (fields : List (String × Bool × Checked))
      (others : List (String × Value))

abbrev Verdict := Except (List Issue) Checked

def Verdict.issues : Verdict → List Issue
  | .ok _ => []
  | .error issues => issues

mutual

/-- The value with instances of models in it. -/
def Checked.toValue : Checked → Value
  | .value v => v
  | .list xs => .list (Checked.toValues xs)
  | .instance m fs others => .record m (Checked.fieldValues fs) others

def Checked.toValues : List Checked → List Value
  | [] => []
  | x :: xs => x.toValue :: Checked.toValues xs

def Checked.fieldValues : List (String × Bool × Checked) → List (String × Value)
  | [] => []
  | (n, _, c) :: fs => (n, c.toValue) :: Checked.fieldValues fs

end

/-- What comes of a value by rules that are none of those of the types here: it is taken, it is refused
for one issue or more, or the reading ends in an error of its own. -/
inductive Reading (α : Type)
  | taken (a : α)
  | refused (issue : Issue) (others : List Issue)
  | raised (kind message : String)

namespace Reading

variable {α β : Type}

def map (f : α → β) : Reading α → Reading β
  | taken a => taken (f a)
  | refused i is => refused i is
  | raised k m => raised k m

def outcome : Reading α → Outcome (Except (List Issue) α)
  | taken a => .ok (.ok a)
  | refused i is => .ok (.error (i :: is))
  | raised k m => .error (.raised k m)

end Reading

end Schema
end TableQuery
