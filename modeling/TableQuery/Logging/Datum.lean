import TableQuery.Fault
import TableQuery.Text.Point

/-! What is logged: values, and texts with halves of characters beside them. -/

namespace TableQuery
namespace Logging

inductive Datum
  | value (v : Value)
  | text (ps : List Point)
  | list (items : List Datum)
  | map (entries : List (Datum × Datum))

instance : Inhabited Datum := ⟨.value .none⟩

namespace Datum

def text? : Datum → Option (List Point)
  | value v => v.text?.map Point.ofText
  | text ps => some ps
  | _ => none

/-- A text of characters only. -/
def string? : Datum → Option String
  | value v => v.text?
  | text ps => Point.text? ps
  | _ => none

def ofEntries (es : List (Value × Value)) : List (Datum × Datum) :=
  es.map fun e => (value e.1, value e.2)

def entries? : Datum → Option (List (Datum × Datum))
  | value v => v.entries?.map ofEntries
  | map es => some es
  | _ => none

def isTruthy : Datum → Bool
  | value v => v.isTruthy
  | text ps => !ps.isEmpty
  | list xs => !xs.isEmpty
  | map es => !es.isEmpty

def typeName : Datum → String
  | value v => v.typeName
  | text _ => "str"
  | list _ => "list"
  | map _ => "dict"

mutual

def hasText : Datum → Bool
  | value v => v.hasText
  | text _ => true
  | list xs => allHaveText xs
  | map es => entriesHaveText es

def allHaveText : List Datum → Bool
  | [] => true
  | x :: xs => hasText x && allHaveText xs

def entriesHaveText : List (Datum × Datum) → Bool
  | [] => true
  | (k, v) :: es => hasText k && hasText v && entriesHaveText es

end

mutual

def shown : Datum → String
  | value v => v.shown
  | text ps => Point.quoted ps
  | list xs => "[" ++ ", ".intercalate (shownAll xs) ++ "]"
  | map es => Value.mapText (shownEntries es)

def shownAll : List Datum → List String
  | [] => []
  | x :: xs => shown x :: shownAll xs

def shownEntries : List (Datum × Datum) → List String
  | [] => []
  | (k, v) :: es => (shown k ++ ": " ++ shown v) :: shownEntries es

end

def plain : Datum → List Point
  | value v => Point.ofText v.plain
  | text ps => ps
  | d => Point.ofText d.shown

/-- Something that is told of what is logged, which has to be written out for it. -/
def tell {α : Type} (d : Datum) (told : α) : Outcome α :=
  if d.hasText then .ok told else .error .tooManyDigits

end Datum

/-- Attributes of a record, no two under the same key. -/
abbrev Attributes := List (Datum × Datum)

namespace Attributes

def has (name : String) (as : Attributes) : Bool := as.any (·.1.string? == some name)

def lookup (name : String) (as : Attributes) : Option Datum :=
  (as.find? (·.1.string? == some name)).map Prod.snd

/-- Replaces the attribute of a name in its place, or adds one at the end. -/
def set (name : String) (d : Datum) (as : Attributes) : Attributes :=
  if has name as then as.map fun a => if a.1.string? == some name then (a.1, d) else a
  else as ++ [(.value (.str name), d)]

end Attributes
end Logging
end TableQuery
