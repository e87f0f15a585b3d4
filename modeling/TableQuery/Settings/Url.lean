import TableQuery.Fault
import TableQuery.Text.Utf8
import TableQuery.Value.Integer

/-! Addresses of databases. -/

namespace TableQuery
namespace Settings

structure Url where
  driver : String
  username : Option String := none
  password : Option String := none
  host : Option String := none
  port : Option Int := none
  database : Option String := none
  query : List (String × String) := []

namespace Url

/-! Percent encoding. -/

def octetsOf (c : Char) : List UInt8 := (String.singleton c).toUTF8.toList

def decodeOctets : List Char → List UInt8
  | [] => []
  | [c] => octetsOf c
  | [c, d] => octetsOf c ++ octetsOf d
  | '%' :: a :: b :: rest =>
    match Text.hexDigit? a, Text.hexDigit? b with
    | some x, some y => UInt8.ofNat (16 * x + y) :: decodeOctets rest
    | _, _ => octetsOf '%' ++ decodeOctets (a :: b :: rest)
  | c :: rest => octetsOf c ++ decodeOctets rest

/-- How many of the octets belong to one ill-formed sequence: a first octet with what could follow
it. -/
def badLength : List UInt8 → Nat
  | a :: b :: rest =>
    let tail (o : UInt8) := 0x80 ≤ o.toNat && o.toNat ≤ 0xBF
    let second := if a.toNat = 0xE0 then 0xA0 ≤ b.toNat && b.toNat ≤ 0xBF
      else if a.toNat = 0xED then 0x80 ≤ b.toNat && b.toNat ≤ 0x9F
      else if a.toNat = 0xF0 then 0x90 ≤ b.toNat && b.toNat ≤ 0xBF
      else if a.toNat = 0xF4 then 0x80 ≤ b.toNat && b.toNat ≤ 0x8F
      else 0xE1 ≤ a.toNat && a.toNat ≤ 0xF3 && tail b
    if !second then 1
    else if a.toNat < 0xF0 then 2
    else match rest with
      | c :: _ => if tail c then 3 else 2
      | [] => 2
  | _ => 1

/-- Characters of octets, with a replacement character for each ill-formed sequence. -/
def charsOf : (fuel : Nat) → List UInt8 → List Char
  | 0, _ => []
  | _, [] => []
  | fuel + 1, octets =>
    let size (k : Nat) := (Text.decodeUtf8 (octets.take k)).bind fun cs =>
      match cs with
      | [c] => some (c, k)
      | _ => none
    match ((size 1).or (size 2)).or ((size 3).or (size 4)) with
    | some (c, k) => c :: charsOf fuel (octets.drop k)
    | none => Char.ofNat 0xFFFD :: charsOf fuel (octets.drop (badLength octets))

def unquote (cs : List Char) : String :=
  let octets := decodeOctets cs
  String.ofList (charsOf octets.length octets)

def isUnreserved (c : Char) : Bool := c.isAlphanum || "_.-~".toList.contains c

def quoteOctet (o : UInt8) : List Char :=
  '%' :: (Text.hex 2 o.toNat).map Char.toUpper

/-- Letters, digits, a few marks and the safe characters stand for themselves. -/
def quote (safe : List Char) (s : String) : String :=
  String.ofList (s.toList.flatMap fun c =>
    if isUnreserved c || safe.contains c then [c] else (octetsOf c).flatMap quoteOctet)

def quotePlus (s : String) : String :=
  (quote [' '] s).map fun c => if c = ' ' then '+' else c

/-! Reading. -/

def isWord (c : Char) : Bool := Text.isAlphanumeric c || c == '_'

/-- A user name, perhaps with a password, before an at sign. A password may hold anything but that
sign, a name neither colon nor slash. -/
def userInfo (cs : List Char) : (Option String × Option String) × List Char :=
  let run := cs.takeWhile fun c => c != ':' && c != '/'
  let rest := cs.dropWhile fun c => c != ':' && c != '/'
  let withPassword := match rest with
    | ':' :: more =>
      match more.dropWhile (· != '@') with
      | _ :: after => some (more.takeWhile (· != '@'), after)
      | [] => none
    | _ => none
  match withPassword with
  | some (password, after) => ((some (unquote run), some (unquote password)), after)
  | none =>
    let tail := (run.reverse.takeWhile (· != '@')).reverse
    if tail.length < run.length then
      ((some (unquote (run.take (run.length - tail.length - 1))), none), tail ++ rest)
    else ((none, none), cs)

def hostOf (cs : List Char) : Option (List Char) × List Char :=
  let plain : Option (List Char) × List Char :=
    let stop (c : Char) := c == '/' || c == ':' || c == '?'
    let h := cs.takeWhile (!stop ·)
    (if h.isEmpty then none else some h, cs.dropWhile (!stop ·))
  match cs with
  | '[' :: more =>
    let run := more.takeWhile fun c => c != '/' && c != '?'
    let tail := (run.reverse.takeWhile (· != ']')).reverse
    let inner := run.take (run.length - tail.length - 1)
    if tail.length < run.length ∧ !inner.isEmpty then
      (some inner, more.drop (inner.length + 1))
    else plain
  | _ => plain

/-- Pairs of a query; those without a value are left out. -/
def pairs (cs : List Char) : List (String × String) :=
  ((String.ofList cs).splitOn "&").filterMap fun p =>
    let spaced := p.toList.map fun c => if c = '+' then ' ' else c
    let k := spaced.takeWhile (· != '=')
    match spaced.dropWhile (· != '=') with
    | _ :: v => if v.isEmpty then none else some (unquote k, unquote v)
    | [] => none

def portOf (cs : List Char) : Outcome Int := (Value.str (String.ofList cs)).toInteger

def parse (s : String) : Outcome Url := do
  let cs := s.toList
  let driver := cs.takeWhile fun c => isWord c || c == '+'
  match driver, cs.drop driver.length with
  | _ :: _, ':' :: '/' :: '/' :: rest =>
    let ((username, password), rest) := userInfo rest
    let (host, rest) := hostOf rest
    let (portText, rest) := match rest with
      | ':' :: more =>
        (some (more.takeWhile fun c => c != '/' && c != '?'),
          more.dropWhile fun c => c != '/' && c != '?')
      | rest => (none, rest)
    let (database, rest) := match rest with
      | '/' :: more => (some (unquote (more.takeWhile (· != '?'))), more.dropWhile (· != '?'))
      | rest => (none, rest)
    let query := match rest with
      | '?' :: more => pairs (more.takeWhile (· != '\n'))
      | _ => []
    let port ← match portText with
      | some p => some <$> portOf p
      | none => pure none
    pure { driver := String.ofList driver, username, password, host := host.map String.ofList, port,
           database, query }
  | _, _ => .error .badUrl

/-! Writing. -/

def backend (u : Url) : String := String.ofList (u.driver.toList.takeWhile (· != '+'))

/-- Drivers of the known backends. -/
def defaultDrivers : List (String × String) :=
  [("sqlite", "pysqlite"), ("postgresql", "psycopg"), ("mysql", "mysqldb"), ("mariadb", "mysqldb"),
   ("oracle", "oracledb"), ("mssql", "pyodbc")]

/-- The driver that is named, or that of a known backend. -/
def driverName (u : Url) : Outcome String :=
  match u.driver.toList.dropWhile (· != '+') with
  | _ :: rest => .ok (String.ofList (rest.takeWhile (· != '+')))
  | [] => match defaultDrivers.lookup u.driver with
    | some d => .ok d
    | none => .error (.unknownBackend u.driver)

def queryText (q : List (String × String)) : String :=
  let sorted := q.mergeSort fun a b => decide (a.1 ≤ b.1)
  if q.isEmpty then ""
  else "?" ++ "&".intercalate (sorted.map fun p => quotePlus p.1 ++ "=" ++ quotePlus p.2)

def text (u : Url) : String :=
  let user := match u.username, u.password with
    | some n, some p => quote [' ', '+'] n ++ ":" ++ quote [' ', '+'] p ++ "@"
    | some n, none => quote [' ', '+'] n ++ "@"
    | none, _ => ""
  let host := match u.host with
    | some h => if h.toList.contains ':' then "[" ++ h ++ "]" else h
    | none => ""
  let port := match u.port with
    | some n => ":" ++ toString n
    | none => ""
  let database := match u.database with
    | some d => "/" ++ quote [' ', '+', '/'] d
    | none => ""
  u.driver ++ "://" ++ user ++ host ++ port ++ database ++ queryText u.query

end Url
end Settings
end TableQuery
