import TableQuery.Text.Folding
import TableQuery.Text.Property
import TableQuery.Text.Script

/-! Sets of characters. -/

namespace TableQuery.Text

/-- What belongs to a set, and about how many octets an automaton needs for it. -/
structure CharSet where
  holds : Char → Bool
  cost : Nat

namespace CharSet

/-- What one range of characters costs. -/
def rangeCost : Nat := 64

def none : CharSet := ⟨fun _ => false, 32⟩

def all : CharSet := ⟨fun _ => true, 1000⟩

def only (c : Char) : CharSet := ⟨fun d => d == c, 32 * c.utf8Size⟩

def range (first last : Char) : CharSet := ⟨fun c => first ≤ c && c ≤ last, rangeCost⟩

def union (s t : CharSet) : CharSet := ⟨fun c => s.holds c || t.holds c, s.cost + t.cost⟩

def inter (s t : CharSet) : CharSet := ⟨fun c => s.holds c && t.holds c, s.cost + t.cost⟩

def compl (s : CharSet) : CharSet := ⟨fun c => !s.holds c, s.cost + all.cost⟩

def diff (s t : CharSet) : CharSet := ⟨fun c => s.holds c && !t.holds c, s.cost + t.cost⟩

def symmDiff (s t : CharSet) : CharSet := ⟨fun c => s.holds c != t.holds c, s.cost + t.cost⟩

/-- With every member the characters that vary from it. -/
def closure (variants : Char → List Char) (s : CharSet) : CharSet :=
  ⟨fun c => (variants c).any s.holds, 2 * s.cost⟩

def ofCategories (ks : List Category) : CharSet :=
  ⟨fun c => ks.contains (category c),
   rangeCost * (Category.runs.filter fun r => ks.any fun k => r.category.all (· == k)).length⟩

def ofProperty (p : Property) : CharSet :=
  ⟨p.holds, (ofCategories p.categories).cost + rangeCost * p.exceptions.length⟩

def ofScript (script : String) : CharSet :=
  ⟨fun c => script? c == some script,
   rangeCost * (Script.runs.filter fun r => r.script == script).length⟩

/-- The characters that a script uses, others' included. -/
def usedBy (script : String) : CharSet :=
  ⟨fun c => (scriptsOf c).contains script,
   (ofScript script).cost +
     rangeCost * (Script.shared.filter fun s => s.scripts.contains script).length⟩

def ascii : CharSet := range (Char.ofNat 0) (Char.ofNat 0x7F)

def digit : CharSet := ofCategories [.decimalNumber]

def space : CharSet := ⟨isWhiteSpace, 10 * rangeCost⟩

/-- Letters and what acts like them, marks, decimal digits, connectors and joiners. -/
def word : CharSet :=
  { holds := fun c =>
      if c.toNat < 0x80 then c.isAlphanum || c == '_'
      else
        let k := category c
        k.isMark || k == .decimalNumber || k == .connectorPunctuation ||
          Property.alphabetic.holds c || Property.joinControl.holds c
    cost := 49836 }

def asciiDigit : CharSet := range '0' '9'

def asciiSpace : CharSet := (range '\t' '\r').union (only ' ')

def asciiLetter : CharSet := (range 'A' 'Z').union (range 'a' 'z')

def asciiAlphanumeric : CharSet := asciiLetter.union asciiDigit

def asciiWord : CharSet := asciiAlphanumeric.union (only '_')

/-- Sets of ASCII characters by name. -/
def asciiNamed? (name : String) : Option CharSet :=
  match name with
  | "alnum" => some asciiAlphanumeric
  | "alpha" => some asciiLetter
  | "ascii" => some ascii
  | "blank" => some ((only ' ').union (only '\t'))
  | "cntrl" => some ((range (Char.ofNat 0) (Char.ofNat 0x1F)).union (only (Char.ofNat 0x7F)))
  | "digit" => some asciiDigit
  | "graph" => some (range '!' '~')
  | "lower" => some (range 'a' 'z')
  | "print" => some (range ' ' '~')
  | "punct" => some ((range '!' '~').diff asciiAlphanumeric)
  | "space" => some asciiSpace
  | "upper" => some (range 'A' 'Z')
  | "word" => some asciiWord
  | "xdigit" => some (asciiDigit.union ((range 'A' 'F').union (range 'a' 'f')))
  | _ => .none

end CharSet
end TableQuery.Text
