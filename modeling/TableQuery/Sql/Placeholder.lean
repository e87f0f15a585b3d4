import TableQuery.Text.Blank

/-! Marks for parameters in the text of a statement. A mark is known by its letters alone, so that one
which stands inside a quoted name is read as well. -/

namespace TableQuery

/-- A mark for one value, a mark for a list of members with what is to stand around each of them, or
any other character. -/
inductive Placeholder
  | value (name : List Char)
  | members (name : List Char) (around : Option (List Char))
  | char (c : Char)

namespace Placeholder

def membersStart : List Char := "__[POSTCOMPILE_".toList

def aroundMark : List Char := ['~', '~']

def membersText (name : String) : String := String.ofList membersStart ++ name ++ "]"

def valueText (name : String) : String := "%(" ++ name ++ ")s"

def toChars : Placeholder → List Char
  | value name => '%' :: '(' :: name ++ [')', 's']
  | members name around => membersStart ++ name ++ around.getD [] ++ [']']
  | char c => [c]

def dropPrefix? : List Char → List Char → Option (List Char)
  | [], cs => some cs
  | p :: ps, c :: cs => if p = c then dropPrefix? ps cs else none
  | _ :: _, [] => none

/-- A name between brackets that holds no closing bracket and is not empty. -/
def value? (cs : List Char) : Option (Placeholder × List Char) := do
  let body ← dropPrefix? ['%', '('] cs
  let name := body.takeWhile (· != ')')
  let rest ← dropPrefix? [')', 's'] (body.dropWhile (· != ')'))
  if name.isEmpty then none else some (value name, rest)

/-- The shortest text within one line, of at least one character, up to a mark that ends a list. -/
def aroundTail? : (read : List Char) → List Char → Option (List Char × List Char)
  | _, [] => none
  | read, c :: cs =>
    match if read.isEmpty then none else dropPrefix? ['~', '~', ']'] (c :: cs) with
    | some rest => some (read.reverse, rest)
    | none => if c = '\n' then none else aroundTail? (c :: read) cs

def around? (cs : List Char) : Option (List Char × List Char) := do
  let body ← dropPrefix? aroundMark cs
  let (inner, rest) ← aroundTail? [] body
  some (aroundMark ++ inner ++ aroundMark, rest)

/-- The shortest name without blanks, of at least one character. -/
def membersTail? : (read : List Char) → List Char → Option (Placeholder × List Char)
  | _, [] => none
  | read, c :: cs =>
    let next := if Text.isBlank c then none else membersTail? (c :: read) cs
    if read.isEmpty then next
    else match around? (c :: cs) with
      | some (around, rest) => some (members read.reverse (some around), rest)
      | none => if c = ']' then some (members read.reverse none, cs) else next

def members? (cs : List Char) : Option (Placeholder × List Char) :=
  (dropPrefix? membersStart cs).bind (membersTail? [])

/-- The marks of a text from the left; `reads` tells which kinds count. A step uses up at least one
character. -/
def scanWith (reads : List Char → Option (Placeholder × List Char)) :
    (steps : Nat) → List Char → List Placeholder
  | 0, _ | _, [] => []
  | steps + 1, c :: cs =>
    match reads (c :: cs) with
    | some (mark, rest) => mark :: scanWith reads steps rest
    | none => char c :: scanWith reads steps cs

/-- All marks of a text. -/
def scan (cs : List Char) : List Placeholder :=
  scanWith (fun cs => (value? cs).or (members? cs)) cs.length cs

/-- The marks for lists of members only. -/
def scanMembers (cs : List Char) : List Placeholder := scanWith members? cs.length cs

/-- The names marked in a text: of values those that are known, of lists all. -/
def names (known : List String) (marks : List Placeholder) : List String :=
  marks.filterMap fun
    | value name => if known.contains (String.ofList name) then some (String.ofList name) else none
    | members name _ => some (String.ofList name)
    | char _ => none

/-- The text with a question mark for each known value. -/
def anonymous (known : List String) (marks : List Placeholder) : List Char :=
  marks.flatMap fun m =>
    match m with
    | value name => if known.contains (String.ofList name) then ['?'] else m.toChars
    | m => m.toChars

end Placeholder
end TableQuery
