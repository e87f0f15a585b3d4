import TableQuery.Text.Category

/-! Characters that have a visible form of their own. -/

namespace TableQuery.Text

/-- Controls, formats, surrogates, private use, unassigned code points and separators have none. -/
def Category.isVisible : Category → Bool
  | spaceSeparator | lineSeparator | paragraphSeparator => false
  | control | format | surrogate | privateUse | unassigned => false
  | _ => true

/-- The space counts as printable, as the only separator. -/
def isPrintable (c : Char) : Bool :=
  if c.toNat < 0x7F then 0x20 ≤ c.toNat else (olderCategory c).isVisible

end TableQuery.Text
