/-! Upper case, as far as it can lead to an ASCII word. -/

namespace TableQuery.Text

/-- Dotless i and long s are the only single letters beyond ASCII whose capital is an ASCII letter;
a letter that cannot become one is kept. -/
def upperChar (c : Char) : Char :=
  if c = 'ı' then 'I' else if c = 'ſ' then 'S' else c.toUpper

def upper (s : String) : String := s.map upperChar

end TableQuery.Text
