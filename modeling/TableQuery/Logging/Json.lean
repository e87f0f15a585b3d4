import TableQuery.Logging.Datum
import TableQuery.Number.Reading

/-! JSON in one line of printable ASCII characters. -/

namespace TableQuery
namespace Logging

inductive Json
  | null
  | bool (b : Bool)
  | int (n : Int)
  | float (x : Binary64)
  | str (ps : List Point)
  | arr (items : List Json)
  | obj (members : List (List Point × Json))

namespace Json

def unit (n : Nat) : List Char := '\\' :: 'u' :: Text.hex 4 n

/-- Printable ASCII characters stand for themselves, quote and backslash apart; beyond the first
plane a character is two units. -/
def escapePoint (n : Nat) : List Char :=
  if n = 0x22 then ['\\', '"']
  else if n = 0x5C then ['\\', '\\']
  else if n = 10 then ['\\', 'n']
  else if n = 13 then ['\\', 'r']
  else if n = 9 then ['\\', 't']
  else if n = 8 then ['\\', 'b']
  else if n = 12 then ['\\', 'f']
  else if 0x20 ≤ n ∧ n < 0x7F then [Char.ofNat n]
  else if n < 0x10000 then unit n
  else unit (0xD800 + (n - 0x10000) / 0x400) ++ unit (0xDC00 + (n - 0x10000) % 0x400)

def quotePoints (ps : List Nat) : List Char := '"' :: ps.flatMap escapePoint ++ ['"']

def quote (ps : List Point) : List Char := quotePoints (ps.map Point.code)

def floatText : Binary64 → String
  | .nan _ => "NaN"
  | .infinity s => if s then "-Infinity" else "Infinity"
  | x => x.text

def joined : List (List Char) → List Char
  | [] => []
  | [a] => a
  | a :: as => a ++ ',' :: ' ' :: joined as

mutual

def chars : Json → List Char
  | null => "null".toList
  | bool b => (if b then "true" else "false").toList
  | int n => (toString n).toList
  | float x => (floatText x).toList
  | str ps => quote ps
  | arr xs => '[' :: joined (itemChars xs) ++ [']']
  | obj ms => '\x7b' :: joined (memberChars ms) ++ ['\x7d']

def itemChars : List Json → List (List Char)
  | [] => []
  | x :: xs => chars x :: itemChars xs

def memberChars : List (List Point × Json) → List (List Char)
  | [] => []
  | (k, v) :: ms => (quote k ++ ':' :: ' ' :: chars v) :: memberChars ms

end

def text (j : Json) : String := String.ofList j.chars

/-- An integer of no more digits than are written. -/
def written (n : Int) : Outcome Int := (Value.int n).tell n

/-- Keys are texts, or numbers, truth values and nothing as a text. -/
def keyOf (d : Datum) : Outcome (List Point) :=
  match d with
  | .value .none => .ok (Point.ofText "null")
  | .value (.bool b) => .ok (Point.ofText (if b then "true" else "false"))
  | .value (.int n) => (Point.ofText ∘ toString) <$> written n
  | .value (.float x) => .ok (Point.ofText (floatText x))
  | d => match d.text? with
    | some ps => .ok ps
    | none => .error (.badCall ("keys must be str, int, float, bool or None, not " ++ d.typeName))

mutual

/-- What JSON has no form for is a string. -/
def ofValue : Value → Outcome Json
  | .none => .ok .null
  | .bool b => .ok (.bool b)
  | .int n => .int <$> written n
  | .float x => .ok (.float x)
  | .str s => .ok (.str (Point.ofText s))
  | .token t => .ok (.str (Point.ofText (if t.isText then t.text else t.label)))
  | .list xs | .tuple xs => do return .arr (← ofValues xs)
  | .sort c d => do return .arr [← ofValue c, ← ofValue d]
  | .map es => do return .obj (← ofEntries es)
  | v => v.tell (.str (Point.ofText v.plain))

def ofValues : List Value → Outcome (List Json)
  | [] => .ok []
  | x :: xs => do
    let j ← ofValue x
    return j :: (← ofValues xs)

def ofEntries : List (Value × Value) → Outcome (List (List Point × Json))
  | [] => .ok []
  | (k, v) :: es => do
    let key ← keyOf (.value k)
    let j ← ofValue v
    return (key, j) :: (← ofEntries es)

end

mutual

def ofDatum : Datum → Outcome Json
  | .value v => ofValue v
  | .text ps => .ok (.str ps)
  | .list xs => do return .arr (← ofData xs)
  | .map es => do return .obj (← ofMembers es)

def ofData : List Datum → Outcome (List Json)
  | [] => .ok []
  | x :: xs => do
    let j ← ofDatum x
    return j :: (← ofData xs)

def ofMembers : List (Datum × Datum) → Outcome (List (List Point × Json))
  | [] => .ok []
  | (k, d) :: es => do
    let key ← keyOf k
    let j ← ofDatum d
    return (key, j) :: (← ofMembers es)

end

end Json
end Logging
end TableQuery
