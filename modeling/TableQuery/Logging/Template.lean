import TableQuery.Logging.Datum
import TableQuery.Number.Places
import TableQuery.Number.Reading

/-! Message templates: a percent sign, flags, a width and a precision, and a letter that says how the
next argument is written. -/

namespace TableQuery
namespace Logging
namespace Template

structure Flags where
  left : Bool := false
  plus : Bool := false
  blank : Bool := false
  alternate : Bool := false
  zero : Bool := false

/-- Arguments still to be used; entries of a mapping can be named instead. -/
structure Args where
  left : List Datum
  mapping : Option Datum := none

def Args.next (a : Args) : Outcome (Datum × Args) :=
  match a.left with
  | v :: vs => .ok (v, { a with left := vs })
  | [] => .error (.badCall "not enough arguments for format string")

def noEntry (key : List Point) : Fault :=
  match Point.text? key with
  | some s => .missingKey (.str s)
  | none => .raised "KeyError" (Point.quoted key)

/-- The entry that a key in brackets names becomes the next argument. -/
def Args.keyed (a : Args) (m : Datum) (key : List Point) : Outcome Args :=
  match (m.entries?.getD []).find? (·.1.text? == some key) with
  | some e => .ok { a with left := [e.2] }
  | none => .error (noEntry key)

def readFlags : Flags → List Point → Flags × List Point
  | f, .char '-' :: ps => readFlags { f with left := true } ps
  | f, .char '+' :: ps => readFlags { f with plus := true } ps
  | f, .char ' ' :: ps => readFlags { f with blank := true } ps
  | f, .char '#' :: ps => readFlags { f with alternate := true } ps
  | f, .char '0' :: ps => readFlags { f with zero := true } ps
  | f, ps => (f, ps)

/-- A number of characters: its name, and its bound with the name of the bound's type. -/
structure Quantity where
  name : String
  type : String
  most : Nat

def width : Quantity := ⟨"width", "ssize_t", Nat.pow 2 63 - 1⟩

def precision : Quantity := ⟨"precision", "int", Nat.pow 2 31 - 1⟩

def isDigit (p : Point) : Bool := p.char?.any Numeral.isDigit

/-- A number, or a star for the next argument. -/
def readSize (q : Quantity) (a : Args) (ps : List Point) :
    Outcome (Option Int × Args × List Point) :=
  let given (n : Int) (a : Args) (rest : List Point) : Outcome (Option Int × Args × List Point) :=
    if -(q.most : Int) - 1 ≤ n ∧ n ≤ q.most then .ok (some n, a, rest)
    else .error (.overflow ("Python int too large to convert to C " ++ q.type))
  match ps with
  | .char '*' :: rest => do
    let (d, a) ← a.next
    match d with
    | .value (.int n) => given n a rest
    | .value (.bool b) => given (if b then 1 else 0) a rest
    | _ => .error (.badCall "* wants int")
  | ps =>
    let ds := (ps.takeWhile isDigit).filterMap Point.char?
    if q.most < Numeral.value ds then .error (.badValue (q.name ++ " too big"))
    else .ok (if ds.isEmpty then none else some (Numeral.value ds), a, ps.dropWhile isDigit)

/-- The key up to the bracket that closes it, and what follows. -/
def readKey : (depth : Nat) → List Point → Option (List Point × List Point)
  | _, [] => none
  | depth, p :: ps =>
    if p = .char ')' ∧ depth = 0 then some ([], ps)
    else
      let depth := if p = .char '(' then depth + 1 else if p = .char ')' then depth - 1 else depth
      (readKey depth ps).map fun r => (p :: r.1, r.2)

/-- A width of more characters than there is memory for. -/
def isVast (width : Nat) : Bool := Nat.pow 2 36 ≤ width

/-- A sign, a base mark and digits, filled up to a width. -/
def padNumber (f : Flags) (width : Nat) (sign mark body : List Char) : List Char :=
  let size := sign.length + mark.length + body.length
  let fill := width - size
  if f.left then sign ++ mark ++ body ++ List.replicate fill ' '
  else if f.zero then sign ++ mark ++ List.replicate fill '0' ++ body
  else List.replicate fill ' ' ++ sign ++ mark ++ body

def padText (f : Flags) (width : Nat) (ps : List Point) : List Point :=
  let fill := List.replicate (width - ps.length) (.char ' ')
  if f.left then ps ++ fill else fill ++ ps

def signOf (f : Flags) (negative : Bool) : List Char :=
  if negative then ['-'] else if f.plus then ['+'] else if f.blank then [' '] else []

def integer (f : Flags) (width : Nat) (precision : Option Nat) (letter : Char) (n : Int) :
    List Char :=
  let (base, mark) : Nat × List Char := match letter with
    | 'x' => (16, ['0', 'x'])
    | 'X' => (16, ['0', 'X'])
    | 'o' => (8, ['0', 'o'])
    | _ => (10, [])
  let ds := Nat.toDigits base n.natAbs
  let ds := if letter = 'X' then ds.map Char.toUpper else ds
  let ds := List.replicate (precision.getD 0 - ds.length) '0' ++ ds
  padNumber f width (signOf f (n < 0)) (if f.alternate then mark else []) ds

/-- The most significant digits of a number. -/
def longest : Nat := 767

/-- A number in decimal. The digits of the form with an exponent are counted in 32 bits, and the short
form leaves zeros at the end out. -/
def float (f : Flags) (width : Nat) (precision : Option Nat) (letter : Char) (x : Binary64) :
    List Char :=
  let upper := letter.isUpper
  let word (s : String) := (if upper then s.map Char.toUpper else s).toList
  let mark := if upper then 'E' else 'e'
  let p := precision.getD 6
  let digits := Int.bmod (p + 1) (Nat.pow 2 32)
  match x with
  | .nan _ => padNumber f width (signOf f false) [] (word "nan")
  | .infinity s => padNumber f width (signOf f s) [] (word "inf")
  | .finite s m e =>
    let (num, den) := Binary64.scaled m 1 (-e)
    padNumber f width (signOf f s) [] (match letter.toLower with
      | 'e' => Places.scientific f.alternate mark num den (digits - 1).toNat
      | 'g' => Places.general f.alternate mark num den (if f.alternate then p else min p longest)
      | _ => Places.fixed f.alternate num den p)

/-- An argument as an integer; fractions are cut off where `fractions` are taken at all. -/
def asInteger (letter : Char) (fractions : Bool) (d : Datum) : Outcome Int :=
  let wrong : Outcome Int := .error (.badCall ("%" ++ String.singleton letter ++ " format: " ++
    (if fractions then "a real number" else "an integer") ++ " is required, not " ++ d.typeName))
  match d with
  | .value (.int n) => .ok n
  | .value (.bool b) => .ok (if b then 1 else 0)
  | .value (.float x) =>
    if !fractions then wrong
    else match x.truncate?, x with
      | some n, _ => .ok n
      | none, .nan _ => .error (.badValue "cannot convert float NaN to integer")
      | none, _ => .error (.overflow "cannot convert float infinity to integer")
  | _ => wrong

def asFloat (d : Datum) : Outcome Binary64 :=
  let ofInt (n : Int) : Outcome Binary64 :=
    let x := Binary64.ofInt n
    if x.isFinite then .ok x else .error (.overflow "int too large to convert to float")
  match d with
  | .value (.float x) => .ok x
  | .value (.int n) => ofInt n
  | .value (.bool b) => ofInt (if b then 1 else 0)
  | d => .error (.badCall ("must be real number, not " ++ d.typeName))

/-- A code point by its number, or as a text. -/
def asPoint (d : Datum) : Outcome Point :=
  let ofInt (n : Int) : Outcome Point :=
    match if n < 0 then none else Point.ofCode? n.toNat with
    | some p => .ok p
    | none => .error (.overflow "%c arg not in range(0x110000)")
  match d with
  | .value (.int n) => ofInt n
  | .value (.bool b) => ofInt (if b then 1 else 0)
  | d => match d.text? with
    | some [p] => .ok p
    | _ => .error (.badCall "%c requires int or char")

def asciiOnly (cs : List Char) : List Char :=
  cs.flatMap fun c =>
    if c.toNat < 0x80 then [c]
    else if c.toNat < 0x100 then '\\' :: 'x' :: Text.hex 2 c.toNat
    else if c.toNat < 0x10000 then '\\' :: 'u' :: Text.hex 4 c.toNat
    else '\\' :: 'U' :: Text.hex 8 c.toNat

def unsupported (letter : Point) (position : Nat) : Fault :=
  let n := letter.code
  .badValue ("unsupported format character '" ++
    (if 31 ≤ n ∧ n < 127 then String.singleton (Char.ofNat n) else "?") ++ "' (0x" ++ Text.hexNat n ++
    ") at index " ++ toString position)

/-- One argument as its letter asks for; `position` is that of the letter. -/
def convert (f : Flags) (width : Nat) (precision : Option Nat) (letter : Point) (position : Nat)
    (d : Datum) : Outcome (List Point) :=
  let text (ps : List Point) := padText f width (match precision with
    | some n => ps.take n
    | none => ps)
  let digits (c : Char) (n : Int) : Outcome (List Point) :=
    if precision.any (Int.pow 2 31 - 4 < ·) then .error (.overflow "precision too large")
    else .ok ((integer f width precision c n).map .char)
  match letter with
  | .char 's' => d.tell (text d.plain)
  | .char 'r' => d.tell (text (Point.ofText d.shown))
  | .char 'a' => d.tell (text ((asciiOnly d.shown.toList).map .char))
  | .char c =>
    if ['d', 'i', 'u'].contains c then do
      let n ← asInteger c true d
      let out ← digits c n
      (Value.int n).tell out
    else if ['x', 'X', 'o'].contains c then asInteger c false d >>= digits c
    else if ['e', 'E', 'f', 'F', 'g', 'G'].contains c then
      (fun x => (float f width precision c x).map .char) <$> asFloat d
    else if c = 'c' then (fun p => padText f width [p]) <$> asPoint d
    else .error (unsupported letter position)
  | .half _ => .error (unsupported letter position)

/-- A key in brackets, if there is one. -/
def Args.select (a : Args) (ps : List Point) : Outcome (Args × List Point) :=
  match ps with
  | .char '(' :: rest => match a.mapping, readKey 0 rest with
    | none, _ => .error (.badCall "format requires a mapping")
    | _, none => .error (.badValue "incomplete format key")
    | some m, some (key, rest) => (fun a => (a, rest)) <$> a.keyed m key
  | ps => .ok (a, ps)

/-- A point with a precision, if there is one. -/
def readPlaces (a : Args) (ps : List Point) : Outcome (Option Nat × Args × List Point) :=
  match ps with
  | .char '.' :: rest =>
    (fun (p, a, rest) => (some (p.getD 0).toNat, a, rest)) <$> readSize precision a rest
  | ps => .ok (none, a, ps)

/-- A letter for the size of a number means nothing. -/
def dropSize : List Point → List Point
  | p :: rest => if p = .char 'h' ∨ p = .char 'l' ∨ p = .char 'L' then rest else p :: rest
  | [] => []

/-- One placeholder, after its percent sign: its text, the arguments left, and the rest. -/
def argument (total : Nat) (a : Args) (ps : List Point) :
    Outcome (List Point × Args × List Point) := do
  let (a, ps) ← a.select ps
  let (f, ps) := readFlags {} ps
  let (size, a, ps) ← readSize width a ps
  let f := if size.any (· < 0) then { f with left := true } else f
  let size := (Int.bmod (size.getD 0).natAbs (Nat.pow 2 64)).toNat
  let (places, a, ps) ← readPlaces a ps
  match dropSize ps with
  | [] => .error (.badValue "incomplete format")
  | letter :: rest => do
    let (d, a) ← a.next
    let out ← convert f (if isVast size then 0 else size) places letter (total - rest.length - 1) d
    if isVast size then .error .outOfMemory else pure (out, a, rest)

/-- A second percent sign stands for one. -/
def placeholder (total : Nat) (a : Args) (ps : List Point) :
    Outcome (List Point × Args × List Point) :=
  match ps with
  | .char '%' :: rest => .ok ([.char '%'], a, rest)
  | ps => argument total a ps

/-- Goes through a template once; each step leaves less of it than `fuel`. -/
def fill (total : Nat) : (fuel : Nat) → Args → List Point → Outcome (List Point × Args)
  | 0, a, _ => .ok ([], a)
  | _, a, [] => .ok ([], a)
  | fuel + 1, a, .char '%' :: ps => do
    let (out, a, rest) ← placeholder total a ps
    let (more, a) ← fill total fuel a rest
    pure (out ++ more, a)
  | fuel + 1, a, p :: ps => do
    let (more, a) ← fill total fuel a ps
    pure (p :: more, a)

/-- A template with its arguments. One mapping that holds anything stands for its entries, and is the
only argument that may be left over. -/
def apply (template : List Point) (args : List Datum) : Outcome (List Point) := do
  let start : Args := match args with
    | [d] => { left := [d], mapping := if d.entries?.isSome && d.isTruthy then some d else none }
    | ds => { left := ds }
  let (out, a) ← fill template.length (template.length + 1) start template
  if a.mapping.isNone && !a.left.isEmpty then
    .error (.badCall "not all arguments converted during string formatting")
  else pure out

/-- The message of a record: a template only where there are arguments. -/
def message (template : Datum) (args : List Datum) : Outcome (List Point) := do
  let text ← template.tell template.plain
  if args.isEmpty then pure text else apply text args

end Template
end Logging
end TableQuery
