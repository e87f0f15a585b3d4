import TableQuery.Schema.Verdict
import TableQuery.Text.Pattern

/-! Record models: the columns of a row, their types, and the rules for their values. -/

namespace TableQuery
namespace Schema

/-- What a value has to keep to beside its type. -/
inductive Limit
  | greaterThan (bound : Int)
  | greaterThanEqual (bound : Int)
  | lessThan (bound : Int)
  | lessThanEqual (bound : Int)
  | minLength (least : Int)
  | maxLength (most : Int)
  | pattern (expression : String)
deriving DecidableEq, Repr

/-- Limits in the order above, at most one of each, and whether values are read strictly. -/
structure Rule where
  strict : Bool := false
  limits : List Limit := []

/-- What becomes of entries that are no fields. -/
inductive Extra
  | ignore | forbid | allow
deriving DecidableEq, Repr

/-- Without a default a field has to be given. A label is the key that stands for the field in a
record. -/
structure FieldOf (α : Type) where
  name : String
  type : α
  rule : Rule := {}
  default : Option Value := none
  label : Option String := none

structure ModelOf (α : Type) where
  name : String
  extra : Extra := .ignore
  fields : List (FieldOf α)

/-- A given type is one of which nothing is known but what it makes of each value. -/
inductive FieldType
  | text
  | integer
  | number
  | flag
  | any
  | literal (options : List Value)
  | listOf (item : FieldType)
  | optional (type : FieldType)
  | model (m : ModelOf FieldType)
  | given (read : Value → Reading Checked)

instance : Inhabited FieldType := ⟨.any⟩

instance {α : Type} [Inhabited α] : Inhabited (FieldOf α) := ⟨⟨"", default, {}, none, none⟩⟩

instance {α : Type} : Inhabited (ModelOf α) := ⟨⟨"", .ignore, []⟩⟩

abbrev Field := FieldOf FieldType

abbrev Model := ModelOf FieldType

def FieldOf.key {α : Type} (f : FieldOf α) : String := f.label.getD f.name

/-- What filters and payloads are checked against: a model, and how whole records are read where that
is not by its fields. Such a reading gives back values for some of the fields. -/
structure Overlay where
  model : Model
  whole : Option (Value → Reading (List (Option Checked))) := none

instance : Coe Model Overlay := ⟨fun m => { model := m }⟩

namespace Limit

def name : Limit → String
  | greaterThan _ => "gt"
  | greaterThanEqual _ => "ge"
  | lessThan _ => "lt"
  | lessThanEqual _ => "le"
  | minLength _ => "min_length"
  | maxLength _ => "max_length"
  | pattern _ => "pattern"

def isBound : Limit → Bool
  | greaterThan _ | greaterThanEqual _ | lessThan _ | lessThanEqual _ => true
  | _ => false

def isLength : Limit → Bool
  | minLength _ | maxLength _ => true
  | _ => false

/-- Where a limit that is part of a type is looked at among the others. -/
def rank : Limit → Nat
  | lessThanEqual _ => 0
  | lessThan _ => 1
  | greaterThanEqual _ => 2
  | greaterThan _ => 3
  | maxLength _ => 4
  | minLength _ => 5
  | pattern _ => 6

end Limit

namespace FieldType

/-- What a type is called where it cannot do what is asked of it. -/
def name : FieldType → String
  | text => "str"
  | integer => "int"
  | number => "float"
  | flag => "bool"
  | any => "any"
  | literal _ => "literal"
  | listOf _ => "list"
  | optional _ => "nullable"
  | model _ => "model"
  | given _ => "function-plain"

/-- The limits that are part of a type; others are looked at once a value is read. -/
def knows : FieldType → Limit → Bool
  | text, l => !l.isBound
  | integer, l | number, l => l.isBound
  | listOf _, l => l.isLength
  | _, _ => false

def canBeStrict : FieldType → Bool
  | any | literal _ => false
  | _ => true

/-- The type apart from leave to be absent. -/
def core : FieldType → FieldType
  | optional t => t.core
  | t => t

end FieldType

namespace Rule

/-- Limits are part of the type up to the first one that the type does not know. -/
def own (r : Rule) (t : FieldType) : List Limit := r.limits.takeWhile t.knows

def later (r : Rule) (t : FieldType) : List Limit := r.limits.dropWhile t.knows

end Rule

end Schema
end TableQuery
