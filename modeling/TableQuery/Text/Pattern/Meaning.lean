import TableQuery.Text.Pattern.Expression
import TableQuery.Text.Pattern.Match

/-! What a regular expression asks for. -/

namespace TableQuery.Text
namespace Pattern

/-- Flags that matter to what is matched. Without Unicode only sets of ASCII characters are allowed. -/
structure Modes where
  ignoreCase : Bool := false
  multiLine : Bool := false
  dotAll : Bool := false
  unicode : Bool := true
  crlf : Bool := false

namespace Modes

def set (m : Modes) (f : Flag × Bool) : Modes :=
  match f.1 with
  | .ignoreCase => { m with ignoreCase := f.2 }
  | .multiLine => { m with multiLine := f.2 }
  | .dotAll => { m with dotAll := f.2 }
  | .unicode => { m with unicode := f.2 }
  | .crlf => { m with crlf := f.2 }
  | .swapGreed | .verbose => m

/-- The first of two changes of one flag counts. -/
def apply (m : Modes) (change : FlagChange) : Modes := change.reverse.foldl set m

def word (m : Modes) : CharSet := if m.unicode then .word else .asciiWord

/-- A set with the variants of its members, if case does not matter. -/
def fold (m : Modes) (s : CharSet) : CharSet :=
  if !m.ignoreCase then s
  else if m.unicode then s.closure caseVariants
  else s.closure asciiVariants

def negate (m : Modes) (negated : Bool) (span : Span) (s : CharSet) : Except Flaw CharSet :=
  if !negated then .ok s
  else if m.unicode then .ok s.compl
  else .error { cause := .notText, span }

end Modes

/-! Properties. -/

/-- A name in small letters, without separators and what is not ASCII, and without the word before it
that only says that it is a name. -/
def plainName (s : String) : String :=
  let cs := s.toList
  let isMarked := match cs with
    | a :: b :: _ => a.toLower == 'i' && b.toLower == 's'
    | _ => false
  let cs := if isMarked then cs.drop 2 else cs
  let kept := cs.filter fun c => c.toNat < 0x80 && c != ' ' && c != '_' && c != '-'
  let name := String.ofList (kept.map Char.toLower)
  if isMarked && name == "c" then "isc" else name

/-- Names of groups of categories, and of single ones. -/
def categoryNames : List (List String × String) :=
  [(["l", "letter"], "Lu Ll Lt Lm Lo"), (["lc", "casedletter"], "Lu Ll Lt"),
   (["lu", "uppercaseletter"], "Lu"), (["ll", "lowercaseletter"], "Ll"),
   (["lt", "titlecaseletter"], "Lt"), (["lm", "modifierletter"], "Lm"), (["lo", "otherletter"], "Lo"),
   (["m", "mark", "combiningmark"], "Mn Mc Me"), (["mn", "nonspacingmark"], "Mn"),
   (["mc", "spacingmark"], "Mc"), (["me", "enclosingmark"], "Me"),
   (["n", "number"], "Nd Nl No"), (["nd", "decimalnumber", "digit"], "Nd"),
   (["nl", "letternumber"], "Nl"), (["no", "othernumber"], "No"),
   (["p", "punctuation", "punct"], "Pc Pd Ps Pe Pi Pf Po"), (["pc", "connectorpunctuation"], "Pc"),
   (["pd", "dashpunctuation"], "Pd"), (["ps", "openpunctuation"], "Ps"),
   (["pe", "closepunctuation"], "Pe"), (["pi", "initialpunctuation"], "Pi"),
   (["pf", "finalpunctuation"], "Pf"), (["po", "otherpunctuation"], "Po"),
   (["s", "symbol"], "Sm Sc Sk So"), (["sm", "mathsymbol"], "Sm"), (["sc", "currencysymbol"], "Sc"),
   (["sk", "modifiersymbol"], "Sk"), (["so", "othersymbol"], "So"),
   (["z", "separator"], "Zs Zl Zp"), (["zs", "spaceseparator"], "Zs"), (["zl", "lineseparator"], "Zl"),
   (["zp", "paragraphseparator"], "Zp"),
   (["c", "other"], "Cc Cf Co Cn"), (["cc", "control", "cntrl"], "Cc"), (["cf", "format"], "Cf"),
   (["co", "privateuse"], "Co"), (["cn", "unassigned"], "Cn")]

def assigned : CharSet := (CharSet.ofCategories [.unassigned]).compl

/-- Characters of a category, or of a wider class. Surrogates are no characters. -/
def categorySet? (name : String) : Option (Except Cause CharSet) :=
  match name with
  | "any" => some (.ok .all)
  | "assigned" => some (.ok assigned)
  | "ascii" => some (.ok .ascii)
  | "cs" | "surrogate" => some (.error .propertyValueUnknown)
  | name => (categoryNames.find? (·.1.contains name)).map fun n =>
    .ok (.ofCategories ((n.2.splitOn " ").filterMap Category.ofCode?))

/-- Scripts of unassigned characters, and of two syllabaries at once, have no members of their own. -/
def scriptSet? (of : String → CharSet) (name : String) : Option (Except Cause CharSet) :=
  match Script.ofName? name with
  | some script => some (.ok (of script))
  | none =>
    if ["zzzz", "unknown", "hrkt", "katakanaorhiragana"].contains name then
      some (.error .propertyValueUnknown)
    else none

/-- Names of properties that have values of other kinds. -/
def otherProperties : List String :=
  ["age", "bc", "bidiclass", "bidimirroringglyph", "bidipairedbracket", "bidipairedbrackettype",
   "blk", "block", "bmg", "bpb", "bpt", "canonicalcombiningclass", "casefolding", "ccc", "ce", "cf",
   "compex", "compositionexclusion", "cwkcf", "changeswhennfkccasefolded", "decompositionmapping",
   "decompositiontype", "dm", "dt", "ea", "eastasianwidth", "equideo", "equivalentunifiedideograph",
   "fullcompositionexclusion", "gc", "gcb", "generalcategory", "graphemeclusterbreak",
   "hangulsyllabletype", "hst", "indicpositionalcategory", "indicsyllabiccategory", "inpc", "insc",
   "isc", "jg", "joininggroup", "joiningtype", "jt", "lb", "lc", "linebreak", "lowercasemapping",
   "na", "na1", "name", "namealias", "nfcqc", "nfcquickcheck", "nfdqc", "nfdquickcheck",
   "nfkccasefold", "nfkccf", "nfkcqc", "nfkcquickcheck", "nfkdqc", "nfkdquickcheck", "nt",
   "numerictype", "numericvalue", "nv", "sb", "sc", "scf", "script", "scriptextensions", "scx",
   "sentencebreak", "sfc", "simplecasefolding", "simplelowercasemapping", "simpletitlecasemapping",
   "simpleuppercasemapping", "slc", "stc", "suc", "tc", "titlecasemapping", "uc", "unicode1name",
   "uppercasemapping", "verticalorientation", "vo", "wb", "wordbreak"]

/-- Properties that hold or not go before categories, and these before scripts; but three short names
are those of categories first. -/
def namedSet (name : String) : Except Cause CharSet :=
  let isCategory := ["cf", "sc", "lc"].contains name
  match if isCategory then none else Property.named? name with
  | some p => .ok (.ofProperty p)
  | none =>
    if !isCategory && otherProperties.contains name then .error .propertyUnknown
    else ((categorySet? name).or (scriptSet? .ofScript name)).getD (.error .propertyUnknown)

def valuedSet (name value : String) : Except Cause CharSet :=
  let known (s : Option (Except Cause CharSet)) := s.getD (.error .propertyValueUnknown)
  match name with
  | "gc" | "generalcategory" => known (categorySet? value)
  | "sc" | "script" => known (scriptSet? .ofScript value)
  | "scx" | "scriptextensions" => known (scriptSet? .usedBy value)
  | name =>
    if otherProperties.contains name || (Property.named? name).isSome then
      .error .propertyValueUnknown
    else .error .propertyUnknown

def Query.set : Query → Except Cause CharSet
  | named n => namedSet (plainName n)
  | valued n v => valuedSet (plainName n) (plainName v)

/-! Classes. -/

/-- A character in a class. Without Unicode it must be ASCII, and no number can be above. -/
def Literal.inClass (m : Modes) (l : Literal) : Except Flaw Char :=
  if m.unicode || l.char.toNat < 0x80 then .ok l.char
  else if l.byNumber && l.char.toNat < 0x100 then .error { cause := .notText, span := l.span }
  else .error { cause := .unicodeOff, span := l.span }

def Shorthand.set (m : Modes) : Shorthand → CharSet
  | digit => if m.unicode then .digit else .asciiDigit
  | space => if m.unicode then .space else .asciiSpace
  | word => m.word

def SetOperation.apply : SetOperation → CharSet → CharSet → CharSet
  | intersection => .inter
  | difference => .diff
  | symmetricDifference => .symmDiff

mutual

def CharClass.set (m : Modes) : CharClass → Except Flaw CharSet
  | .empty _ => .ok .none
  | .literal l => .only <$> l.inClass m
  | .range a b _ => do
    let first ← a.inClass m
    return .range first (← b.inClass m)
  | .ascii name negated s => m.negate negated s (m.fold ((CharSet.asciiNamed? name).getD .none))
  | .shorthand k negated s => m.negate negated s (k.set m)
  | .property q negated s =>
    if !m.unicode then .error { cause := .unicodeOff, span := s }
    else match q.set with
      | .ok set => m.negate negated s (m.fold set)
      | .error cause => .error { cause, span := s }
  | .bracketed c negated s => do m.negate negated s (m.fold (← c.set m))
  | .union cs _ => unionOf m cs
  | .binary o a b _ => do
    let left ← a.set m
    let right ← b.set m
    return o.apply (m.fold left) (m.fold right)

def unionOf (m : Modes) : List CharClass → Except Flaw CharSet
  | [] => .ok .none
  | c :: cs => do
    let s ← c.set m
    return s.union (← unionOf m cs)

end

/-! Expressions. -/

def Literal.pattern (m : Modes) (l : Literal) : Except Flaw Pattern :=
  if !m.unicode && l.byNumber && 0x80 ≤ l.char.toNat then .error { cause := .notText, span := l.span }
  else
    let variants := if m.unicode then caseVariants l.char else asciiVariants l.char
    if m.ignoreCase && variants.any (· != l.char) then .ok (.one (m.fold (.only l.char)))
    else .ok (.one (.only l.char))

/-- Any character, but for ends of lines unless these are wanted. -/
def dot (m : Modes) (span : Span) : Except Flaw Pattern :=
  if !m.unicode then .error { cause := .notText, span }
  else if m.dotAll then .ok (.one .all)
  else if m.crlf then .ok (.one ((CharSet.only '\n').union (.only '\r')).compl)
  else .ok (.one (CharSet.only '\n').compl)

def Anchor.look (m : Modes) : Anchor → Look
  | lineStart => if m.multiLine then .lineStart m.crlf else .textStart
  | lineEnd => if m.multiLine then .lineEnd m.crlf else .textEnd
  | textStart => .textStart
  | textEnd => .textEnd
  | boundary => .boundary m.word
  | noBoundary => .noBoundary m.word
  | wordStart => .wordStart m.word
  | wordEnd => .wordEnd m.word
  | wordStartHalf => .wordStartHalf m.word
  | wordEndHalf => .wordEndHalf m.word

/-! A change of flags goes on to the end of the group that it is in, through further alternatives. -/

mutual

def Tree.pattern (m : Modes) : Tree → Except Flaw (Pattern × Modes)
  | .empty _ => .ok (.empty, m)
  | .flags change _ => .ok (.empty, m.apply change)
  | .literal l => do return (← l.pattern m, m)
  | .dot s => do return (← dot m s, m)
  | .anchor a _ => .ok (.look (a.look m), m)
  | .charClass c => do return (.one (← c.set m), m)
  | .repeated t least most _ => do
    let (p, m) ← t.pattern m
    return (.rep p least most, m)
  | .group change captures t _ => do
    let (p, _) ← t.pattern (m.apply change)
    return (if captures then .group p else p, m)
  | .sequence ts _ => sequenceOf m ts
  | .alternatives ts _ => alternativesOf m ts

def sequenceOf (m : Modes) : List Tree → Except Flaw (Pattern × Modes)
  | [] => .ok (.empty, m)
  | t :: ts => do
    let (p, m) ← t.pattern m
    let (q, m) ← sequenceOf m ts
    return (.seq p q, m)

def alternativesOf (m : Modes) : List Tree → Except Flaw (Pattern × Modes)
  | [] => .ok (.one .none, m)
  | t :: ts => do
    let (p, m) ← t.pattern m
    let (q, m) ← alternativesOf m ts
    return (.alt p q, m)

end

end Pattern
end TableQuery.Text
