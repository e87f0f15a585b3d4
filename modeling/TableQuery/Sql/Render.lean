import TableQuery.Fault
import TableQuery.Sql.Layout
import TableQuery.Sql.Placeholder

/-! Parameter names, and statements written out with them. No two parameters of a statement have the
same name. -/

namespace TableQuery

/-- A statement as text, and its parameters by name in the order of their binding. -/
structure Rendered where
  sql : String
  params : List (String × Value)

namespace Binding

/-- A piece of which the parameter has its name. A cell keeps the column it is named after. -/
inductive Named
  | text (s : String)
  | quoted (name : String)
  | value (column name : String) (value : Value) (cast : Option Cast)
  | members (name : String) (values : List Value)

/-- Bases with the number of parameters counted under each, how many names were cut, the columns
that name cells, and the names taken. -/
structure Names where
  counts : List (String × Nat) := []
  cut : Nat := 0
  keys : List String := []
  taken : List String := []

def escapeChar (c : Char) : Char :=
  if c = '%' then 'P' else if c = '(' then 'A' else if c = ')' then 'Z' else if c = ':' then 'C'
  else if ".[] ".toList.contains c then '_' else c

def escape (s : String) : String := s.map escapeChar

/-- The first of `name__k`, `name__(k+1)`, … that is free, of at most as many as there are names. -/
def firstFree (taken : List String) (name : String) (k : Nat) : (tries : Nat) → String
  | 0 => name ++ "__" ++ toString k
  | tries + 1 =>
    let candidate := name ++ "__" ++ toString k
    if taken.contains candidate then firstFree taken name (k + 1) tries else candidate

/-- A name that is not taken: itself if possible, else with the first free number. -/
def free (taken : List String) (name : String) : String :=
  if taken.contains name then firstFree taken name 1 taken.length else name

def Names.take (n : Names) (name : String) : String × Names :=
  let name := free n.taken (escape name)
  (name, { n with taken := name :: n.taken })

/-- The next name under a base, cut where it is too long for the dialect. -/
def Names.next (d : Dialect) (n : Names) (base : String) : String × Names :=
  let k := (n.counts.lookup base).getD 0 + 1
  let n := { n with counts := (base, k) :: n.counts }
  let name := base ++ "_" ++ toString k
  if d.longestName < name.length then
    let n := { n with cut := n.cut + 1 }
    (String.ofList (name.toList.take d.longestName) ++ "_" ++ Text.hexNat n.cut, n)
  else (name, n)

/-- A counted name may not be that of a column which names a cell. -/
def Names.counted (d : Dialect) (n : Names) (base : String) : Outcome (String × Names) :=
  let (name, n) := n.next d base
  if n.keys.contains name then .error (.parameterClash name) else .ok (n.take name)

def name (d : Dialect) (n : Names) : Piece → Outcome (Named × Names)
  | .text s => .ok (.text s, n)
  | .quoted s => .ok (.quoted s, n)
  | .slot (.cell key v) =>
    let (name, n) := { n with keys := key :: n.keys }.take key
    .ok (.value key name v none, n)
  | .slot (.operand base v cast) => do
    let (name, n) ← n.counted d base
    pure (.value name name v cast, n)
  | .slot (.members base vs) => do
    let (name, n) ← n.counted d base
    pure (.members name vs, n)

def nameAll (d : Dialect) : Names → Layout → Outcome (List Named × Names)
  | n, [] => .ok ([], n)
  | n, p :: ps => do
    let (first, n) ← name d n p
    let (rest, n) ← nameAll d n ps
    pure (first :: rest, n)

def castText (d : Dialect) (cast : Option Cast) : String :=
  match d, cast with
  | .postgresql, some c => "::" ++ c.text
  | _, _ => ""

def placeholder (d : Dialect) (name : String) (cast : Option Cast) : String :=
  match d with
  | .sqlite => "?"
  | .postgresql => Placeholder.valueText name ++ castText d cast

/-- Free names for a list of parameters, each taken before the next. -/
def freeAll : (taken : List String) → List (String × Value) → List (String × Value) × List String
  | taken, [] => ([], taken)
  | taken, (name, v) :: rest =>
    let name := free taken name
    let (rest, taken) := freeAll (name :: taken) rest
    ((name, v) :: rest, taken)

/-- The members of a list as cells of their own, where the first one is a list. -/
def rows? (values : List Value) : Option (List Value) :=
  match values with
  | first :: _ => if first.items?.isSome then some values else none
  | [] => none

def iterateRow (v : Value) : Outcome (List Value) :=
  match v.iterate? with
  | some xs => .ok xs
  | none => .error (.notIterable v.typeName)

def cells (name : String) (rows : List (List Value)) : List (String × Value) :=
  (rows.mapIdx fun i row =>
    row.mapIdx fun j v => (name ++ "_" ++ toString (i + 1) ++ "_" ++ toString (j + 1), v)).flatten

/-- Pieces with commas between them. -/
def listed (parts : List (List Named)) : List Named := [.text ", "].intercalate parts

def places (cast : Option Cast) (params : List (String × Value)) : List Named :=
  listed (params.map fun p => [.value p.1 p.1 p.2 cast])

/-- Row `i` of width `w` is written with the names of the cells from `i * w` on. -/
def rowPieces (names : List String) (i : Nat) (row : List Value) : Outcome (List Named) :=
  let mine := (names.drop (i * row.length)).take row.length
  if mine.length < row.length then .error .rowTooShort
  else .ok (.text "(" :: places none (mine.zip row) ++ [.text ")"])

def rowsPieces (names : List String) :
    (i : Nat) → List (List Value) → Outcome (List (List Named))
  | _, [] => .ok []
  | i, row :: rest => do
    let first ← rowPieces names i row
    let rest ← rowsPieces names (i + 1) rest
    pure (first :: rest)

def rowsLead (d : Dialect) : List Named :=
  match d with
  | .sqlite => [.text "VALUES "]
  | .postgresql => []

/-- A member list written out: its pieces, its parameters, and the names taken with theirs. -/
def expand (d : Dialect) (taken : List String) (name : String) (values : List Value) :
    Outcome (List Named × List (String × Value) × List String) :=
  match rows? values with
  | some rows => do
    let rows ← rows.mapM iterateRow
    let (params, taken) := freeAll taken (cells name rows)
    let pieces ← rowsPieces (params.map Prod.fst) 0 rows
    pure (rowsLead d ++ listed pieces, params, taken)
  | none =>
    let cast := values.head?.bind Cast.ofValue?
    let (params, taken) :=
      freeAll taken (values.mapIdx fun i v => (name ++ "_" ++ toString (i + 1), v))
    .ok (places cast params, params, taken)

/-- A piece as it stands in the text. A member list has a mark in its place. -/
def written (d : Dialect) : Named → String
  | .text s => s
  | .quoted s => Identifier.quote d s
  | .value _ name _ cast => placeholder d name cast
  | .members name _ => Placeholder.membersText name

/-- A piece as it stands in the text at first, where every parameter is marked by its name. -/
def marked (d : Dialect) : Named → String
  | .text s => s
  | .quoted s => Identifier.quote d s
  | .value _ name _ cast => Placeholder.valueText name ++ castText d cast
  | .members name _ => Placeholder.membersText name

def template (d : Dialect) (pieces : List Named) : String := String.join (pieces.map (marked d))

def Named.name? : Named → Option String
  | .text _ | .quoted _ => none
  | .value _ name .. | .members name _ => some name

/-- Parameters under their names, or under the columns that they are named after. -/
def values (byColumn : Bool) (pieces : List Named) : List (String × Value) :=
  pieces.filterMap fun
    | .value column name v _ => some (if byColumn then column else name, v)
    | _ => none

def memberLists (pieces : List Named) : List (String × List Value) :=
  pieces.filterMap fun
    | .members name vs => some (name, vs)
    | _ => none

/-- A text in which the places of single values are final, and the names it marks, in their order.
Where places have no names, whatever reads like the mark of a parameter is one. -/
def settle (d : Dialect) (pieces : List Named) : String × List String :=
  let known := pieces.filterMap (·.name?)
  let text := template d pieces
  match d with
  | .postgresql => (text, known)
  | .sqlite =>
    let marks := Placeholder.scan text.toList
    (String.ofList (Placeholder.anonymous known marks), Placeholder.names known marks)

/-- Member lists written out, each when its name first comes up: their texts by name, and their
parameters. -/
def expandAll (d : Dialect) (known : List String) (lists : List (String × List Value)) :
    (taken : List String) → (done names : List String) →
      Outcome (List (String × String) × List (String × Value))
  | _, _, [] => .ok ([], [])
  | taken, done, name :: rest =>
    if !known.contains name then .error (.missingKey (.str name))
    else if done.contains name then expandAll d known lists taken done rest
    else match lists.lookup name with
      | none => expandAll d known lists taken done rest
      | some vs => do
        let (pieces, params, taken) ← expand d taken name vs
        let (texts, more) ← expandAll d known lists taken (name :: done) rest
        pure ((name, String.join (pieces.map (written d))) :: texts, params ++ more)

/-- The parts of a text between the marks that stand around members. -/
def cutAround : (steps : Nat) → (part : List Char) → List Char → List String
  | 0, part, _ | _, part, [] => [String.ofList part.reverse]
  | steps + 1, part, c :: cs =>
    match Placeholder.dropPrefix? Placeholder.aroundMark (c :: cs) with
    | some rest => String.ofList part.reverse :: cutAround steps [] rest
    | none => cutAround steps (c :: part) cs

/-- Each member between what is to stand around it. -/
def wrap (around : List Char) (text : String) : Outcome String :=
  match cutAround around.length [] around with
  | _ :: before :: _ :: behind :: _ =>
    .ok (", ".intercalate ((text.splitOn ", ").map fun m => before ++ m ++ behind))
  | _ => .error (.badIndex "list index out of range")

def unfoldMark (texts : List (String × String)) : Placeholder → Outcome String
  | .members name around =>
    match texts.lookup (String.ofList name), around with
    | none, _ => .error (.missingKey (.str (String.ofList name)))
    | some text, none => .ok text
    | some text, some around => wrap around text
  | m => .ok (String.ofList m.toChars)

/-- The text with each mark for members replaced. -/
def unfold (texts : List (String × String)) (sql : String) : Outcome String := do
  let parts ← (Placeholder.scanMembers sql.toList).mapM (unfoldMark texts)
  pure (String.join parts)

/-- Without member lists nothing is left to replace; with one, values go by their columns. -/
def write (d : Dialect) (taken : List String) (pieces : List Named) : Outcome Rendered :=
  let (sql, names) := settle d pieces
  let lists := memberLists pieces
  if lists.isEmpty then .ok ⟨sql, values false pieces⟩
  else do
    let (texts, members) ← expandAll d (pieces.filterMap (·.name?)) lists taken [] names
    let sql ← unfold texts sql
    pure ⟨sql, values true pieces ++ members⟩

end Binding

namespace Layout

open Binding in
def render (d : Dialect) (l : Layout) : Outcome Rendered := do
  let (pieces, names) ← nameAll d {} l
  write d names.taken pieces

open Binding in
def folded (d : Dialect) (l : Layout) : Outcome String := do
  let (pieces, _) ← nameAll d {} l
  pure (settle d pieces).1

end Layout

namespace Statement

def render (d : Dialect) (s : Statement) : Outcome Rendered := (Layout.ofStatement d s).render d

/-- The text without its member lists, which is the same whatever their lengths. -/
def folded (d : Dialect) (s : Statement) : Outcome String := (Layout.ofStatement d s).folded d

end Statement
end TableQuery
