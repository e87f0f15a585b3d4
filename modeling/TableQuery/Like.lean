import TableQuery.Fault

/-! LIKE patterns that match a caller's text literally. -/

namespace TableQuery
namespace Like

def escapeMark : Char := '\\'

def isSpecial (c : Char) : Bool := c == '%' || c == '_' || c == escapeMark

def escapeChars (cs : List Char) : List Char :=
  cs.flatMap fun c => if isSpecial c then [escapeMark, c] else [c]

/-- Wildcards around an escaped text; without a mode there are none. -/
def wrapChars (mode : Option LikeMode) (cs : List Char) : List Char :=
  match mode with
  | some .startsWith => cs ++ ['%']
  | some .endsWith => '%' :: cs
  | some .contains => '%' :: cs ++ ['%']
  | some .exact | none => cs

def escape (s : String) : String := String.ofList (escapeChars s.toList)

def pattern (mode : Option LikeMode) (s : String) : String :=
  String.ofList (wrapChars mode (escapeChars s.toList))

/-- The text that a pattern is made from. -/
def subject (v : Value) : Outcome String :=
  match v with
  | .bytes _ => .error .octetsForText
  | v => match v.text? with
    | some s => .ok s
    | none => .error (.notText v.typeName)

/-- The mode that a value stands for, by name or as a member. -/
def mode (v : Value) : Outcome (Option LikeMode) :=
  match v with
  | .none => .ok none
  | .token (.mode m) => .ok (some m)
  | v => match v.unhashable? with
    | some type => .error (.unhashable type)
    | none => match v.text?.bind LikeMode.ofText? with
      | some m => .ok (some m)
      | none => .error (.missingKey v)

def escapeValue (v : Value) : Outcome String := escape <$> subject v

def patternValue (v m : Value) : Outcome String := do
  let mode ← mode m
  pattern mode <$> subject v

end Like
end TableQuery
