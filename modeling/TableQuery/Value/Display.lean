import TableQuery.Number.Reading
import TableQuery.Number.Shortest
import TableQuery.Text.Quoted
import TableQuery.Value

/-! Values as text: shown, with texts between quotes, and plain. A value has a text unless an integer in
it has too many digits to be written. -/

namespace TableQuery
namespace Value

def tupleText (parts : List String) : String :=
  match parts with
  | [p] => "(" ++ p ++ ",)"
  | ps => "(" ++ ", ".intercalate ps ++ ")"

def setText (parts : List String) : String :=
  if parts.isEmpty then "set()" else "\x7b" ++ ", ".intercalate parts ++ "\x7d"

def mapText (parts : List String) : String := "\x7b" ++ ", ".intercalate parts ++ "\x7d"

mutual

/-- Whether a value can be written out at all. Where it cannot, neither text below is ever seen. -/
def hasText : Value → Bool
  | int n => Numeral.isWritable n
  | list xs | tuple xs | sequence _ xs | set xs => allHaveText xs
  | map es | frozen es => entriesHaveText es
  | sort c d => hasText c && hasText d
  | condition (.comparison _ _ v) _ | condition (.like _ _ v _) _ | condition (.membership _ v) _
  | condition (.nullCheck _ _ v) _ => hasText v
  | record _ fs gs => fieldsHaveText fs && fieldsHaveText gs
  | _ => true

def allHaveText : List Value → Bool
  | [] => true
  | x :: xs => hasText x && allHaveText xs

def entriesHaveText : List (Value × Value) → Bool
  | [] => true
  | (k, v) :: es => hasText k && hasText v && entriesHaveText es

def fieldsHaveText : List (String × Value) → Bool
  | [] => true
  | (_, v) :: es => hasText v && fieldsHaveText es

end

mutual

def shown : Value → String
  | none => "None"
  | bool b => if b then "True" else "False"
  | int n => toString n
  | float x => x.text
  | str s => Text.quoted s
  | bytes b => Text.quotedOctets b
  | list xs => "[" ++ ", ".intercalate (shownAll xs) ++ "]"
  | tuple xs => tupleText (shownAll xs)
  | sequence t xs => t ++ "([" ++ ", ".intercalate (shownAll xs) ++ "])"
  | set xs => setText (shownAll xs)
  | map es => mapText (shownEntries es)
  | frozen es => "mappingproxy(" ++ mapText (shownEntries es) ++ ")"
  | token t => "<" ++ t.label ++ ": " ++ Text.quoted t.text ++ ">"
  | sort c d => "SortSpec(column=" ++ shown c ++ ", direction=" ++ shown d ++ ")"
  | condition c _ => c.family ++ "(" ++ ", ".intercalate (shownParts c) ++ ")"
  | record m fs gs => m ++ "(" ++ ", ".intercalate (shownFields fs ++ shownFields gs) ++ ")"
  | shared _ => "[...]"

def shownAll : List Value → List String
  | [] => []
  | x :: xs => shown x :: shownAll xs

def shownEntries : List (Value × Value) → List String
  | [] => []
  | (k, v) :: es => (shown k ++ ": " ++ shown v) :: shownEntries es

def shownFields : List (String × Value) → List String
  | [] => []
  | (k, v) :: es => (k ++ "=" ++ shown v) :: shownFields es

def shownParts : Condition Value → List String
  | .base f => ["field=" ++ Text.quoted f]
  | .comparison f o v =>
    ["field=" ++ Text.quoted f, "operator=" ++ Text.quoted o.text, "value=" ++ shown v]
  | .like f o v p =>
    ["field=" ++ Text.quoted f, "operator=" ++ Text.quoted o.text, "value=" ++ shown v,
     "pattern=" ++ match p with | some m => Text.quoted m.text | Option.none => "None"]
  | .membership f v => ["field=" ++ Text.quoted f, "operator='IN'", "value=" ++ shown v]
  | .nullCheck f o v =>
    ["field=" ++ Text.quoted f, "operator=" ++ Text.quoted o.text, "value=" ++ shown v]

end

/-- Texts as they are, a frozen mapping as the mapping that it is, everything else as shown. -/
def plain : Value → String
  | str s => s
  | token t => t.label
  | frozen es => mapText (shownEntries es)
  | condition c _ => " ".intercalate (shownParts c)
  | record _ fs gs => " ".intercalate (shownFields fs ++ shownFields gs)
  | v => v.shown

/-- A value as shown, or its type where it cannot be written out. -/
def safelyShown (v : Value) : String :=
  if v.hasText then v.shown else "<unprintable " ++ v.typeName ++ " object>"

end Value
end TableQuery
