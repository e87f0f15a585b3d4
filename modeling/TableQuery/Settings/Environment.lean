import TableQuery.Text.Blank

/-! Variables of the environment, and files that hold some. -/

namespace TableQuery
namespace Settings

/-! Values under names, in the order in which these were first set. -/

namespace Named

variable {α : Type}

def set (vs : List (String × α)) (name : String) (value : α) : List (String × α) :=
  if vs.any (·.1 == name) then vs.map fun v => if v.1 == name then (name, value) else v
  else vs ++ [(name, value)]

def unset (vs : List (String × α)) (name : String) : List (String × α) := vs.filter (·.1 != name)

/-- The last value under a name. Names that differ in case only are one, unless they are `exact`. -/
def find? (exact : Bool) (vs : List (String × α)) (name : String) : Option α :=
  let form (s : String) := if exact then s else s.map Char.toLower
  (vs.reverse.find? fun v => form v.1 == form name).map Prod.snd

end Named

/-- Variables of the environment, each of which has a value. -/
abbrev Variables := List (String × String)

/-- Variables of a file, which may be named without a value. -/
abbrev Entries := List (String × Option String)

/-! Files of variables: a name, an equals sign and a value on a line, quoted or not. -/

namespace EnvFile

def isSpace (c : Char) : Bool := Text.isBlank c && c != '\n'

def skipSpace (cs : List Char) : List Char := cs.dropWhile isSpace

def skipBlanks (cs : List Char) : List Char := cs.dropWhile Text.isBlank

def restOfLine (cs : List Char) : List Char := (cs.dropWhile (· != '\n')).drop 1

def skipExport (cs : List Char) : List Char :=
  match cs with
  | 'e' :: 'x' :: 'p' :: 'o' :: 'r' :: 't' :: c :: rest =>
    if isSpace c then skipSpace rest else cs
  | cs => cs

/-- The text up to a closing quote; a backslash keeps the quote after it in the text, if another one
follows that can close it. -/
def quoted (quote : Char) : List Char → Option (List Char × List Char)
  | [] => none
  | [c] => if c = quote then some ([], []) else none
  | '\\' :: c :: rest =>
    if c = quote then
      match quoted quote rest with
      | some r => some ('\\' :: c :: r.1, r.2)
      | none => some (['\\'], rest)
    else (quoted quote (c :: rest)).map fun r => ('\\' :: r.1, r.2)
  | c :: rest =>
    if c = quote then some ([], rest) else (quoted quote rest).map fun r => (c :: r.1, r.2)

def doubleEscapes : List (Char × Char) :=
  [('\\', '\\'), ('\'', '\''), ('"', '"'), ('a', Char.ofNat 7), ('b', Char.ofNat 8),
   ('f', Char.ofNat 12), ('n', '\n'), ('r', '\r'), ('t', '\t'), ('v', Char.ofNat 11)]

def singleEscapes : List (Char × Char) := [('\\', '\\'), ('\'', '\'')]

def unescape (escapes : List (Char × Char)) : List Char → List Char
  | [] => []
  | [c] => [c]
  | '\\' :: c :: rest =>
    match escapes.lookup c with
    | some d => d :: unescape escapes rest
    | none => '\\' :: unescape escapes (c :: rest)
  | c :: rest => c :: unescape escapes rest

/-- A line up to a comment that follows a blank. -/
def uncommented : List Char → List Char
  | [] => []
  | c :: rest =>
    if Text.isBlank c && (skipBlanks rest).head? == some '#' then [] else c :: uncommented rest

def key (cs : List Char) : Option (Option (List Char) × List Char) :=
  match cs with
  | '#' :: _ => some (none, cs)
  | '\'' :: rest =>
    let k := rest.takeWhile (· != '\'')
    match k, rest.dropWhile (· != '\'') with
    | [], _ | _, [] => none
    | k, _ :: rest => some (some k, rest)
  | cs =>
    let stop (c : Char) := c == '=' || c == '#' || Text.isBlank c
    let k := cs.takeWhile (!stop ·)
    if k.isEmpty then none else some (some k, cs.dropWhile (!stop ·))

/-- A value after an equals sign: between quotes, or the rest of the line without its comment. -/
def value (cs : List Char) : Option (List Char × List Char) :=
  match skipSpace cs with
  | '\'' :: rest => (quoted '\'' rest).map fun r => (unescape singleEscapes r.1, r.2)
  | '"' :: rest => (quoted '"' rest).map fun r => (unescape doubleEscapes r.1, r.2)
  | _ => some (Text.trimChars (uncommented (cs.takeWhile (· != '\n'))), cs.dropWhile (· != '\n'))

/-- The end of a line, after an optional comment. -/
def endOfLine (cs : List Char) : Option (List Char) :=
  match skipSpace cs with
  | [] => some []
  | '\n' :: rest => some rest
  | '#' :: rest => some (restOfLine rest)
  | _ => none

/-- A line that names a variable, with its value if it gives one, and what follows; or else the place
where it went wrong. -/
def binding (cs : List Char) :
    Except (List Char) (Option (List Char × Option (List Char)) × List Char) := do
  let cs := skipExport cs
  let (k, cs) ← (key cs).elim (.error cs) .ok
  let cs := skipSpace cs
  let (v, cs) ← match cs with
    | '=' :: cs => (value cs).elim (.error cs) fun r => .ok (some r.1, r.2)
    | cs => .ok (none, cs)
  let cs ← (endOfLine cs).elim (.error cs) .ok
  pure (k.map fun k => (k, v), cs)

/-- Goes through the lines of a file; each round leaves less of it than `fuel`. -/
def bindings : (fuel : Nat) → List Char → List (List Char × Option (List Char))
  | 0, _ => []
  | fuel + 1, cs =>
    match skipBlanks cs with
    | [] => []
    | cs =>
      match binding cs with
      | .ok (b, rest) => b.toList ++ bindings fuel rest
      | .error rest => bindings fuel (restOfLine rest)

/-- The text between the braces after a dollar sign: a name, and what to take without it. -/
def reference (cs : List Char) : Option ((List Char × List Char) × List Char) :=
  let body := cs.takeWhile (· != '\x7d')
  match cs.dropWhile (· != '\x7d') with
  | [] => none
  | _ :: rest =>
    let name := body.takeWhile (· != ':')
    match body.dropWhile (· != ':') with
    | [] => some ((name, []), rest)
    | _ :: '-' :: otherwise => some ((name, otherwise), rest)
    | _ => none

/-- The text with each reference replaced by the variable that it names. -/
def interpolate (lookup : String → Option String) : (fuel : Nat) → List Char → List Char
  | 0, cs => cs
  | _, [] => []
  | fuel + 1, '$' :: '\x7b' :: rest =>
    match reference rest with
    | some ((name, otherwise), rest) =>
      ((lookup (String.ofList name)).elim otherwise String.toList) ++ interpolate lookup fuel rest
    | none => '$' :: interpolate lookup fuel ('\x7b' :: rest)
  | fuel + 1, c :: rest => c :: interpolate lookup fuel rest

def normalizeLines : List Char → List Char
  | [] => []
  | ['\r'] => ['\n']
  | '\r' :: '\n' :: rest => '\n' :: normalizeLines rest
  | '\r' :: rest => '\n' :: normalizeLines rest
  | c :: rest => c :: normalizeLines rest

/-- A mark at the beginning that tells the order of octets is no part of a text. -/
def unmarked (cs : List Char) : List Char :=
  match cs with
  | c :: rest => if c = '\uFEFF' then rest else cs
  | [] => []

/-- The variables of a file. A reference is to an earlier variable of the file, which is empty if it
was given no value, or else of the environment. -/
def read (env : Variables) (text : String) : Entries :=
  let cs := normalizeLines (unmarked text.toList)
  let add (es : Entries) (b : List Char × Option (List Char)) : Entries :=
    let lookup (n : String) := (es.lookup n).elim (env.lookup n) fun v => some (v.getD "")
    let text (cs : List Char) := String.ofList (interpolate lookup (cs.length + 1) cs)
    Named.set es (String.ofList b.1) (b.2.map text)
  (bindings (cs.length + 1) cs).foldl add []

end EnvFile
end Settings
end TableQuery
