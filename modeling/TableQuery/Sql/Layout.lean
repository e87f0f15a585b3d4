import TableQuery.Sql.Statement

/-! A statement laid out as words, names and places for parameters. -/

namespace TableQuery

/-- A place for a parameter. A cell is named after its column, an operand or a member list after a
base that is counted through the statement. -/
inductive Slot
  | cell (key : String) (value : Value)
  | operand (base : String) (value : Value) (cast : Option Cast)
  | members (base : String) (values : List Value)

/-- A part of a statement: fixed words, a name to be quoted, or a place. -/
inductive Piece
  | text (s : String)
  | quoted (name : String)
  | slot (s : Slot)

abbrev Layout := List Piece

namespace Layout

/-- Characters that no parameter name can hold. -/
def isUnnameable (c : Char) : Bool := "%()$ .[]:".toList.contains c

/-- Each run of unnameable characters as one underscore. -/
def joinRuns : List Char → List Char
  | [] => []
  | [c] => [if isUnnameable c then '_' else c]
  | c :: d :: rest =>
    if isUnnameable c then
      if isUnnameable d then joinRuns (d :: rest) else '_' :: joinRuns (d :: rest)
    else c :: joinRuns (d :: rest)

/-- What the parameters of a column are counted under. -/
def base (column : String) : String :=
  String.ofList (Text.stripBy (· == '_') (joinRuns column.toList))

def operand (column : String) (v : Value) : Piece :=
  .slot (.operand (base column) v (Cast.ofValue? v))

/-- Pieces with a text between each two. -/
def join (separator : String) (ls : List Layout) : Layout := [.text separator].intercalate ls

def flagText (d : Dialect) (flag : Bool) : String :=
  match d, flag with
  | .postgresql, true => "true"
  | .postgresql, false => "false"
  | .sqlite, true => "1"
  | .sqlite, false => "0"

def escapeClause : String := " ESCAPE '\\'"

def predicate (d : Dialect) : Predicate → Layout
  | .isNull c => [.quoted c, .text " IS NULL"]
  | .isNotNull c => [.quoted c, .text " IS NOT NULL"]
  | .isFlag c negated flag =>
    [.quoted c, .text ((if negated then " != " else " = ") ++ flagText d flag)]
  | .compare c o v => [.quoted c, .text (" " ++ o.text ++ " "), operand c v]
  | .like c o p =>
    match d, o with
    | .sqlite, .ilike =>
      [.text "lower(", .quoted c, .text ") LIKE lower(", operand c (.str p), .text (")" ++ escapeClause)]
    | _, _ => [.quoted c, .text (" " ++ o.text ++ " "), operand c (.str p), .text escapeClause]
  | .oneOf c vs => [.quoted c, .text " IN (", .slot (.members (base c) vs), .text ")"]

def conjunction (d : Dialect) (f : Filter) : Layout := join " AND " (f.map (predicate d))

def filter (d : Dialect) (before : String) (f : Filter) : Layout :=
  if f.isEmpty then [] else .text before :: conjunction d f

def names (ns : List String) : Layout := join ", " (ns.map fun n => [.quoted n])

def columns : Columns → Layout
  | .all => [.text "*"]
  | .named ns => names ns

def target (t : Target) : Layout :=
  match t.schema with
  | some s => [.quoted s, .text ".", .quoted t.table]
  | none => [.quoted t.table]

def orderItem (column : String) (direction : Direction) : Layout :=
  [.quoted column, .text (" " ++ direction.text)]

def order (items : List (String × Direction)) : Layout :=
  if items.isEmpty then []
  else .text " ORDER BY " :: join ", " (items.map fun o => orderItem o.1 o.2)

def bound (n : Int) : Piece := .slot (.operand "param" (.int n) (Cast.ofValue? (.int n)))

/-- Where a dialect cannot leave out a bound, a constant takes its place. -/
def pagination (d : Dialect) (take skip : Option Int) : Layout :=
  match d, take, skip with
  | _, none, none => []
  | .sqlite, take, skip =>
    [.text "\n LIMIT ", bound (take.getD (-1)), .text " OFFSET ", bound (skip.getD 0)]
  | .postgresql, some n, none => [.text " \n LIMIT ", bound n]
  | .postgresql, some n, some k => [.text " \n LIMIT ", bound n, .text " OFFSET ", bound k]
  | .postgresql, none, some k => [.text "\n LIMIT ALL OFFSET ", bound k]

def row (cells : List (String × Value)) : Layout :=
  .text "(" :: join ", " (cells.map fun c => [.slot (.cell c.1 c.2)]) ++ [.text ")"]

def returning (c : Columns) : Layout := .text " RETURNING " :: columns c

def insertInto (t : Target) (ns : List String) : Layout :=
  .text "INSERT INTO " :: target t ++ .text " (" :: names ns ++ [.text ") VALUES "]

/-- The cells of a row of many have the number of the row in their names. -/
def numbered (index : Nat) (name : String) : String := name ++ "_m" ++ toString index

def assignment (name : String) (value : Value) : Layout :=
  [.quoted name, .text "=", .slot (.cell name value)]

def ofStatement (d : Dialect) : Statement → Layout
  | .select c t f o take skip =>
    .text "SELECT " :: columns c ++ .text " \nFROM " :: target t ++ filter d " \nWHERE " f ++
      order o ++ pagination d take skip
  | .count t f =>
    .text "SELECT count(*) AS count \nFROM " :: target t ++ filter d " \nWHERE " f
  | .insert t ns values c => insertInto t ns ++ row (ns.zip values) ++ returning c
  | .insertMany t ns rows c =>
    insertInto t ns ++
      join ", " (rows.mapIdx fun i values => row ((ns.map (numbered i)).zip values)) ++ returning c
  | .update t assignments f c =>
    .text "UPDATE " :: target t ++ .text " SET " ::
      join ", " (assignments.map fun a => assignment a.1 a.2) ++ filter d " WHERE " f ++ returning c
  | .delete t f c => .text "DELETE FROM " :: target t ++ filter d " WHERE " f ++ returning c

end Layout
end TableQuery
