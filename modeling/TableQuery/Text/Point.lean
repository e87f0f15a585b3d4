import TableQuery.Text.Quoted

/-! Code points. A text holds characters, and can hold halves of characters beyond the first plane by
themselves. -/

namespace TableQuery

inductive Point
  | char (c : Char)
  | half (n : Fin 0x800)
deriving DecidableEq, Repr

namespace Point

def code : Point → Nat
  | char c => c.toNat
  | half n => 0xD800 + n

def ofCode? (n : Nat) : Option Point :=
  if h : n.isValidChar then some (char (Char.ofNatAux n h))
  else if h : 0xD800 ≤ n ∧ n < 0xE000 then some (half ⟨n - 0xD800, by omega⟩)
  else none

def char? : Point → Option Char
  | char c => some c
  | half _ => none

def ofText (s : String) : List Point := s.toList.map char

/-- A text of characters only. -/
def text? (ps : List Point) : Option String := (ps.mapM char?).map String.ofList

/-- A text with its halves of characters replaced. -/
def replaced (ps : List Point) : String := String.ofList (ps.map fun p => p.char?.getD '\uFFFD')

def escape (quote : Char) : Point → List Char
  | char c => Text.escapeChar quote c
  | half n => '\\' :: 'u' :: Text.hex 4 (half n).code

/-- Between quotes, where a half of a character is never shown as it is. -/
def quoted (ps : List Point) : String :=
  let quote := Text.quoteFor (ps.filterMap char?)
  String.ofList (quote :: ps.flatMap (escape quote) ++ [quote])

end Point
end TableQuery
