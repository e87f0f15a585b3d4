import TableQuery.Proofs.Sql.Lexeme

/-! Reading a SELECT back from its lexemes, and writing it again. -/

namespace TableQuery
namespace Reading
open Lexeme

/-- A place is known by its name, in the dialect that has names, and may be marked with a type. -/
structure Place where
  key : Option String
  cast : Option Cast
deriving DecidableEq

/-- What a conjunct says of its column. -/
inductive Term
  | isNull
  | isNotNull
  | flag (negated value : Bool)
  | compare (operator : Comparison) (place : Place)
  | like (operator : LikeOperator) (place : Place)
  | oneOf (places : List Place)
  | oneOfRows (rows : List (List Place))
deriving DecidableEq

structure Select where
  columns : Columns
  target : Target
  filter : List (String × Term)
  order : List (String × Direction)
  limit : Option Place
  offset : Option Place
deriving DecidableEq

/-! The reader. -/

/-- A reader takes what it can from the front, and leaves the rest. -/
abbrev Reader (α : Type) := List Lexeme → Option (α × List Lexeme)

def skip? : List Char → List Lexeme → Option (List Lexeme)
  | [], ls => some ls
  | c :: cs, .char e :: ls => if c = e then skip? cs ls else none
  | _ :: _, _ => none

/-- What stands behind fixed words. -/
def word? (s : String) (ls : List Lexeme) : Option (List Lexeme) := skip? s.toList ls

def name? : Reader String
  | .name n :: ls => some (n, ls)
  | _ => none

def cast? (c : Cast) (ls : List Lexeme) : Option (Option Cast × List Lexeme) :=
  (word? ("::" ++ c.text) ls).map fun ls => (some c, ls)

/-- The type that a place is marked with, if there is one. -/
def casts (ls : List Lexeme) : Option Cast × List Lexeme :=
  (((cast? .integer ls).or (cast? .bigint ls)).or (cast? .varchar ls)).getD (none, ls)

def place? : Reader Place
  | .hole k :: ls => some (⟨k, (casts ls).1⟩, (casts ls).2)
  | _ => none

/-- Items with a separator between each two, one at least. -/
def sepBy {α : Type} (item : Reader α) (separator : String) : (most : Nat) → Reader (List α)
  | 0, _ => none
  | most + 1, ls =>
    (item ls).bind fun r =>
      match word? separator r.2 with
      | some rest => (sepBy item separator most rest).map fun more => (r.1 :: more.1, more.2)
      | none => some ([r.1], r.2)

def row? (ls : List Lexeme) : Option (List Place × List Lexeme) := do
  let ls ← word? "(" ls
  match word? ")" ls with
  | some ls => some ([], ls)
  | none => do
    let (places, ls) ← sepBy place? ", " (ls.length + 1) ls
    let ls ← word? ")" ls
    some (places, ls)

def members? (ls : List Lexeme) : Option (Term × List Lexeme) := do
  let inner := (word? "VALUES " ls).getD ls
  let (term, ls) ← match word? "(" inner with
    | some _ => (sepBy row? ", " (inner.length + 1) inner).map fun r => (Term.oneOfRows r.1, r.2)
    | none => (sepBy place? ", " (inner.length + 1) inner).map fun r => (Term.oneOf r.1, r.2)
  let ls ← word? ")" ls
  some (term, ls)

def flag? (d : Dialect) (negated : Bool) (ls : List Lexeme) : Option (Term × List Lexeme) :=
  ((word? (Layout.flagText d true) ls).map fun ls => (.flag negated true, ls)).or
    ((word? (Layout.flagText d false) ls).map fun ls => (.flag negated false, ls))

def comparison? (d : Dialect) (ls : List Lexeme) : Option (Term × List Lexeme) :=
  Comparison.all.findSome? fun o => (word? (" " ++ o.text ++ " ") ls).bind fun ls =>
    ((place? ls).map fun r => (.compare o r.1, r.2)).or
      (match o with
      | .eq => flag? d false ls
      | .ne => flag? d true ls
      | _ => none)

def like? (ls : List Lexeme) : Option (Term × List Lexeme) :=
  [LikeOperator.like, LikeOperator.ilike].findSome? fun o => do
    let ls ← word? (" " ++ o.text ++ " ") ls
    let (k, ls) ← place? ls
    let ls ← word? Layout.escapeClause ls
    some (.like o k, ls)

def term? (d : Dialect) (ls : List Lexeme) : Option (Term × List Lexeme) :=
  (((((word? " IS NULL" ls).map fun ls => (.isNull, ls)).or
    ((word? " IS NOT NULL" ls).map fun ls => (.isNotNull, ls))).or
    ((word? " IN (" ls).bind members?)).or (comparison? d ls)).or (like? ls)

/-- Where a dialect has no ILIKE, both sides of a LIKE are put in small letters. -/
def folded? (ls : List Lexeme) : Option ((String × Term) × List Lexeme) := do
  let ls ← word? "lower(" ls
  let (c, ls) ← name? ls
  let ls ← word? ") LIKE lower(" ls
  let (k, ls) ← place? ls
  let ls ← word? (")" ++ Layout.escapeClause) ls
  some ((c, .like .ilike k), ls)

def conjunct? (d : Dialect) (ls : List Lexeme) : Option ((String × Term) × List Lexeme) :=
  match name? ls with
  | some (c, ls) => (term? d ls).map fun r => ((c, r.1), r.2)
  | none => folded? ls

def columns? (ls : List Lexeme) : Option (Columns × List Lexeme) :=
  match word? "*" ls with
  | some ls => some (.all, ls)
  | none => (sepBy name? ", " (ls.length + 1) ls).map fun r => (.named r.1, r.2)

def target? (ls : List Lexeme) : Option (Target × List Lexeme) := do
  let (n, ls) ← name? ls
  match word? "." ls with
  | some ls => (name? ls).map fun r => (⟨some n, r.1⟩, r.2)
  | none => some (⟨none, n⟩, ls)

def orderItem? (ls : List Lexeme) : Option ((String × Direction) × List Lexeme) := do
  let (c, ls) ← name? ls
  ((word? " ASC" ls).map fun ls => ((c, .asc), ls)).or
    ((word? " DESC" ls).map fun ls => ((c, .desc), ls))

/-- A part that fixed words lead in, or nothing. -/
def optional? {α : Type} (lead : String) (part : Reader (List α)) (ls : List Lexeme) :
    Option (List α × List Lexeme) :=
  match word? lead ls with
  | some ls => part ls
  | none => some ([], ls)

/-- The bounds, at the end of the text. -/
def bounds? (ls : List Lexeme) : Option (Option Place × Option Place) :=
  if ls = [] then some (none, none)
  else match word? "\n LIMIT ALL OFFSET " ls with
    | some ls => (place? ls).bind fun r => if r.2 = [] then some (none, some r.1) else none
    | none => do
      let ls ← (word? " \n LIMIT " ls).or (word? "\n LIMIT " ls)
      let (limit, ls) ← place? ls
      if ls = [] then some (some limit, none)
      else do
        let ls ← word? " OFFSET " ls
        let (offset, ls) ← place? ls
        if ls = [] then some (some limit, some offset) else none

/-- One SELECT, which takes up the whole text. -/
def select? (d : Dialect) (ls : List Lexeme) : Option Select := do
  let ls ← word? "SELECT " ls
  let (columns, ls) ← columns? ls
  let ls ← word? " \nFROM " ls
  let (target, ls) ← target? ls
  let (filter, ls) ← optional? " \nWHERE " (sepBy (conjunct? d) " AND " (ls.length + 1)) ls
  let (order, ls) ← optional? " ORDER BY " (sepBy orderItem? ", " (ls.length + 1)) ls
  let (limit, offset) ← bounds? ls
  some ⟨columns, target, filter, order, limit, offset⟩

/-! The writer. -/

def ofPlace (p : Place) : List Lexeme :=
  .hole p.key :: (p.cast.elim [] fun c => chars ("::" ++ c.text))

def ofPlaces (ps : List Place) : List Lexeme := commas (ps.map ofPlace)

def ofRow (ps : List Place) : List Lexeme := chars "(" ++ (ofPlaces ps ++ chars ")")

def ofTerm (d : Dialect) : Term → List Lexeme
  | .isNull => chars " IS NULL"
  | .isNotNull => chars " IS NOT NULL"
  | .flag negated value => chars ((if negated then " != " else " = ") ++ Layout.flagText d value)
  | .compare o p => chars (" " ++ o.text ++ " ") ++ ofPlace p
  | .like o p => chars (" " ++ o.text ++ " ") ++ (ofPlace p ++ chars Layout.escapeClause)
  | .oneOf ps => chars " IN (" ++ (ofPlaces ps ++ chars ")")
  | .oneOfRows rows => chars " IN (" ++ ((Binding.rowsLead d).flatMap (ofNamed d) ++
      (commas (rows.map ofRow) ++ chars ")"))

def ofConjunct (d : Dialect) (e : String × Term) : List Lexeme :=
  match d, e.2 with
  | .sqlite, .like .ilike p => chars "lower(" ++ (.name e.1 :: (chars ") LIKE lower(" ++
      (ofPlace p ++ chars (")" ++ Layout.escapeClause))))
  | d, t => .name e.1 :: ofTerm d t

def ofColumns : Columns → List Lexeme
  | .all => chars "*"
  | .named ns => commas (ns.map fun n => [.name n])

def ofTarget (t : Target) : List Lexeme :=
  t.schema.elim [] (fun s => .name s :: chars ".") ++ [.name t.table]

def ofOrderItem (o : String × Direction) : List Lexeme :=
  .name o.1 :: chars (" " ++ o.2.text)

/-- Parts between separators, behind the words that lead them in, or nothing. -/
def ofOptional (lead separator : String) (parts : List (List Lexeme)) : List Lexeme :=
  if parts = [] then [] else chars lead ++ (chars separator).intercalate parts

def limitLead : Dialect → String
  | .postgresql => " \n LIMIT "
  | .sqlite => "\n LIMIT "

def ofBounds (d : Dialect) : Option Place → Option Place → List Lexeme
  | none, none => []
  | some l, none => chars (limitLead d) ++ ofPlace l
  | some l, some o => chars (limitLead d) ++ (ofPlace l ++ (chars " OFFSET " ++ ofPlace o))
  | none, some o => chars "\n LIMIT ALL OFFSET " ++ ofPlace o

def ofSelect (d : Dialect) (q : Select) : List Lexeme :=
  chars "SELECT " ++ (ofColumns q.columns ++ (chars " \nFROM " ++ (ofTarget q.target ++
    (ofOptional " \nWHERE " " AND " (q.filter.map (ofConjunct d)) ++
      (ofOptional " ORDER BY " ", " (q.order.map ofOrderItem) ++ ofBounds d q.limit q.offset)))))

/-! What was written is read as what it was. -/

theorem skip?_append (cs : List Char) (ls : List Lexeme) :
    skip? cs (cs.map .char ++ ls) = some ls := by
  induction cs with
  | nil => rfl
  | cons c cs ih => simpa [skip?] using ih

@[simp]
theorem word?_chars (s : String) (ls : List Lexeme) : word? s (chars s ++ ls) = some ls :=
  skip?_append s.toList ls

/-- Nothing that could be taken for the type of a place stands in front. -/
def Clean (ls : List Lexeme) : Prop := word? ":" ls = none

theorem clean_comma (ls : List Lexeme) : Clean (chars ", " ++ ls) := rfl

theorem casts_clean {ls : List Lexeme} (h : Clean ls) : casts ls = (none, ls) := by
  have hs : ∀ cs, skip? (':' :: cs) ls = none := by
    intro cs
    change skip? [':'] ls = none at h
    cases ls with
    | nil => rfl
    | cons x ls =>
      cases x with
      | char e =>
        have he : ':' ≠ e := by
          rintro rfl
          simp [skip?] at h
        simp [skip?, he]
      | _ => rfl
  unfold casts cast? word?
  rw [show ("::" ++ Cast.integer.text).toList = ':' :: ":INTEGER".toList from rfl,
    show ("::" ++ Cast.bigint.text).toList = ':' :: ":BIGINT".toList from rfl,
    show ("::" ++ Cast.varchar.text).toList = ':' :: ":VARCHAR".toList from rfl, hs, hs, hs]
  rfl

theorem place?_ofPlace (p : Place) {ls : List Lexeme} (h : Clean ls) :
    place? (ofPlace p ++ ls) = some (p, ls) := by
  obtain ⟨k, cast⟩ := p
  cases cast with
  | none =>
    change place? (.hole k :: ls) = _
    rw [place?, casts_clean h]
  | some c => cases c <;> rfl

theorem length_le_intercalate (separator : List Lexeme) (hs : separator ≠ [])
    (mss : List (List Lexeme)) : mss.length ≤ (separator.intercalate mss).length + 1 := by
  induction mss with
  | nil => simp
  | cons ms mss ih =>
    cases mss with
    | nil => simp
    | cons ms' mss =>
      have := List.length_pos_of_ne_nil hs
      rw [List.intercalate_cons_cons, List.length_cons, List.length_append, List.length_append]
      omega

theorem sepBy_map {α : Type} {item : Reader α} {write : α → List Lexeme} {separator : String}
    {as : List α} {rest : List Lexeme} {most : Nat}
    (h : ∀ a ∈ as, ∀ rest, Clean rest → item (write a ++ rest) = some (a, rest)) (hne : as ≠ [])
    (hm : as.length ≤ most) (hsep : ∀ ls, Clean (chars separator ++ ls)) (hrest : Clean rest)
    (hstop : word? separator rest = none) :
    sepBy item separator most ((chars separator).intercalate (as.map write) ++ rest) =
      some (as, rest) := by
  induction as generalizing most with
  | nil => exact absurd rfl hne
  | cons a as ih =>
    obtain ⟨most, rfl⟩ : ∃ k, most = k + 1 := ⟨most - 1, by simp at hm; omega⟩
    have ha := h a (List.mem_cons_self ..)
    have has := fun b hb => h b (List.mem_cons_of_mem a hb)
    cases as with
    | nil =>
      rw [List.map_singleton, List.intercalate_singleton, sepBy, ha rest hrest, Option.bind_some,
        hstop]
    | cons b as =>
      rw [List.map_cons, List.map_cons, List.intercalate_cons_cons, List.append_assoc,
        List.append_assoc, sepBy, ha _ (hsep _), Option.bind_some, word?_chars, ← List.map_cons]
      simp only [ih has (List.cons_ne_nil b as) (Nat.le_of_succ_le_succ hm), Option.map_some]

/-- As many steps as there are lexemes are enough. -/
theorem sepBy_length {α : Type} {item : Reader α} {write : α → List Lexeme} {separator : String}
    {as : List α} {rest : List Lexeme}
    (h : ∀ a ∈ as, ∀ rest, Clean rest → item (write a ++ rest) = some (a, rest)) (hne : as ≠ [])
    (hs : chars separator ≠ []) (hsep : ∀ ls, Clean (chars separator ++ ls)) (hrest : Clean rest)
    (hstop : word? separator rest = none) :
    sepBy item separator (((chars separator).intercalate (as.map write) ++ rest).length + 1)
      ((chars separator).intercalate (as.map write) ++ rest) = some (as, rest) := by
  refine sepBy_map h hne ?_ hsep hrest hstop
  have := length_le_intercalate (chars separator) hs (as.map write)
  rw [List.length_map] at this
  rw [List.length_append]
  omega

theorem sepBy_ofPlaces {ps : List Place} (hne : ps ≠ []) {rest : List Lexeme} (hrest : Clean rest)
    (hstop : word? ", " rest = none) :
    sepBy place? ", " ((ofPlaces ps ++ rest).length + 1) (ofPlaces ps ++ rest) = some (ps, rest) :=
  sepBy_length (fun p _ _ => place?_ofPlace p) hne (by decide) clean_comma hrest hstop

/-- Where a list of places begins, no fixed words do. -/
theorem skip?_ofPlaces {ps : List Place} (hne : ps ≠ []) (c : Char) (cs : List Char)
    (rest : List Lexeme) : skip? (c :: cs) (ofPlaces ps ++ rest) = none := by
  obtain ⟨p, ps, rfl⟩ := List.exists_cons_of_ne_nil hne
  cases ps <;> rfl

theorem row?_ofRow (ps : List Place) (rest : List Lexeme) :
    row? (ofRow ps ++ rest) = some (ps, rest) := by
  rw [ofRow, List.append_assoc, List.append_assoc, row?, word?_chars]
  by_cases hp : ps = []
  · subst hp
    rfl
  · have hclose : word? ")" (ofPlaces ps ++ (chars ")" ++ rest)) = none := skip?_ofPlaces hp _ _ _
    have hread := sepBy_ofPlaces hp (show Clean (chars ")" ++ rest) from rfl) rfl
    simp only [Option.bind_eq_bind, Option.bind_some, hclose, hread, word?_chars]

/-- A term that can be read again: a list is not empty. -/
def Term.IsFull (t : Term) : Prop := t ≠ .oneOf [] ∧ t ≠ .oneOfRows []

theorem members?_ofPlaces {ps : List Place} (hne : ps ≠ []) (rest : List Lexeme) :
    members? (ofPlaces ps ++ (chars ")" ++ rest)) = some (.oneOf ps, rest) := by
  have hv : word? "VALUES " (ofPlaces ps ++ (chars ")" ++ rest)) = none := skip?_ofPlaces hne _ _ _
  have ho : word? "(" (ofPlaces ps ++ (chars ")" ++ rest)) = none := skip?_ofPlaces hne _ _ _
  have hread := sepBy_ofPlaces hne (show Clean (chars ")" ++ rest) from rfl) rfl
  simp only [members?, hv, Option.getD_none, ho, hread, Option.map_some, Option.bind_eq_bind,
    Option.bind_some, word?_chars]

theorem members?_ofRows (d : Dialect) {rows : List (List Place)} (hne : rows ≠ [])
    (rest : List Lexeme) : members? ((Binding.rowsLead d).flatMap (ofNamed d) ++
      (commas (rows.map ofRow) ++ (chars ")" ++ rest))) = some (.oneOfRows rows, rest) := by
  obtain ⟨ls, hl⟩ : ∃ ls, commas (rows.map ofRow) ++ (chars ")" ++ rest) = chars "(" ++ ls := by
    obtain ⟨row, rows, rfl⟩ := List.exists_cons_of_ne_nil hne
    cases rows with
    | nil => exact ⟨_, rfl⟩
    | cons next rows => exact ⟨_, rfl⟩
  have hv : (word? "VALUES " ((Binding.rowsLead d).flatMap (ofNamed d) ++ (chars "(" ++ ls))).getD
      ((Binding.rowsLead d).flatMap (ofNamed d) ++ (chars "(" ++ ls)) = chars "(" ++ ls := by
    cases d <;> rfl
  have hread : sepBy row? ", " ((chars "(" ++ ls).length + 1) (chars "(" ++ ls) =
      some (rows, chars ")" ++ rest) := by
    rw [← hl]
    exact sepBy_length (fun ps _ rest _ => row?_ofRow ps rest) hne (by decide) clean_comma
      rfl rfl
  rw [hl]
  simp only [members?, hv, word?_chars, hread, Option.map_some, Option.bind_eq_bind,
    Option.bind_some]

theorem term?_in (d : Dialect) {ms rest : List Lexeme} {t : Term}
    (h : members? ms = some (t, rest)) : term? d (chars " IN (" ++ ms) = some (t, rest) := by
  have hterm : term? d (chars " IN (" ++ ms) =
      ((members? ms).or (comparison? d (chars " IN (" ++ ms))).or (like? (chars " IN (" ++ ms)) :=
    rfl
  simp only [hterm, h, Option.some_or]

theorem term?_compare (d : Dialect) (o : Comparison) (p : Place) {rest : List Lexeme}
    (h : Clean rest) :
    term? d (chars (" " ++ o.text ++ " ") ++ (ofPlace p ++ rest)) = some (.compare o p, rest) := by
  have hread : ∀ k ms, term? d (chars (" " ++ o.text ++ " ") ++ (.hole k :: ms)) =
      (place? (.hole k :: ms)).map fun r => (.compare o r.1, r.2) := by
    intro k ms
    cases o <;> rfl
  exact (hread _ _).trans (congrArg _ (place?_ofPlace p h))

theorem term?_like (d : Dialect) (o : LikeOperator) (p : Place) (rest : List Lexeme) :
    term? d (chars (" " ++ o.text ++ " ") ++ (ofPlace p ++ (chars Layout.escapeClause ++ rest))) =
      some (.like o p, rest) := by
  have hclean : Clean (chars Layout.escapeClause ++ rest) := rfl
  have hread : ∀ k ms, place? (.hole k :: ms) = some (p, chars Layout.escapeClause ++ rest) →
      term? d (chars (" " ++ o.text ++ " ") ++ (.hole k :: ms)) = some (.like o p, rest) := by
    intro k ms hplace
    have hterm : term? d (chars (" " ++ o.text ++ " ") ++ (.hole k :: ms)) =
        like? (chars (" " ++ o.text ++ " ") ++ (.hole k :: ms)) := by
      cases o <;> rfl
    rw [hterm]
    cases o with
    | like =>
      simp only [like?, List.findSome?_cons, word?_chars, hplace, Option.bind_eq_bind,
        Option.bind_some]
    | ilike =>
      have hno : word? (" " ++ LikeOperator.like.text ++ " ")
          (chars (" " ++ LikeOperator.ilike.text ++ " ") ++ (.hole k :: ms)) = none := rfl
      simp only [like?, List.findSome?_cons, hno, word?_chars, hplace, Option.bind_eq_bind,
        Option.bind_some, Option.bind_none]
  exact hread _ _ (place?_ofPlace p hclean)

theorem term?_ofTerm (d : Dialect) {t : Term} (ht : t.IsFull) {rest : List Lexeme}
    (hrest : Clean rest) : term? d (ofTerm d t ++ rest) = some (t, rest) := by
  cases t with
  | isNull => rfl
  | isNotNull => rfl
  | flag negated value => cases d <;> cases negated <;> cases value <;> rfl
  | compare o p =>
    rw [ofTerm, List.append_assoc]
    exact term?_compare d o p hrest
  | like o p =>
    rw [ofTerm, List.append_assoc, List.append_assoc]
    exact term?_like d o p rest
  | oneOf ps =>
    rw [ofTerm, List.append_assoc, List.append_assoc]
    exact term?_in d (members?_ofPlaces (fun h => ht.1 (congrArg _ h)) rest)
  | oneOfRows rows =>
    rw [ofTerm, List.append_assoc, List.append_assoc, List.append_assoc]
    exact term?_in d (members?_ofRows d (fun h => ht.2 (congrArg _ h)) rest)

theorem folded?_ofPlace (c : String) (p : Place) (rest : List Lexeme) :
    folded? (chars "lower(" ++ (.name c :: (chars ") LIKE lower(" ++
      (ofPlace p ++ (chars (")" ++ Layout.escapeClause) ++ rest))))) =
      some ((c, .like .ilike p), rest) := by
  have hclean : Clean (chars (")" ++ Layout.escapeClause) ++ rest) := rfl
  simp only [folded?, word?_chars, name?, place?_ofPlace p hclean, Option.bind_eq_bind,
    Option.bind_some]

theorem conjunct?_ofConjunct (d : Dialect) {e : String × Term} (he : e.2.IsFull)
    {rest : List Lexeme} (hrest : Clean rest) :
    conjunct? d (ofConjunct d e ++ rest) = some (e, rest) := by
  obtain ⟨c, t⟩ := e
  have hplain : conjunct? d (.name c :: (ofTerm d t ++ rest)) = some ((c, t), rest) := by
    rw [conjunct?, name?]
    simp only [term?_ofTerm d he hrest, Option.map_some]
  unfold ofConjunct
  split
  · rename_i p ht
    obtain rfl : t = .like .ilike p := ht
    simp only [List.append_assoc, List.cons_append]
    exact folded?_ofPlace c p rest
  · exact hplain

theorem orderItem?_ofOrderItem (o : String × Direction) (rest : List Lexeme) :
    orderItem? (ofOrderItem o ++ rest) = some (o, rest) := by
  obtain ⟨c, direction⟩ := o
  change orderItem? (.name c :: (chars (" " ++ direction.text) ++ rest)) = _
  cases direction <;> rfl

theorem columns?_ofColumns {c : Columns} (hc : c ≠ .named []) {rest : List Lexeme}
    (hrest : Clean rest) (hstop : word? ", " rest = none) :
    columns? (ofColumns c ++ rest) = some (c, rest) := by
  cases c with
  | all => rfl
  | named ns =>
    have hne : ns ≠ [] := fun h => hc (congrArg _ h)
    have hstar : word? "*" (commas (ns.map fun n => [.name n]) ++ rest) = none := by
      obtain ⟨n, ns, rfl⟩ := List.exists_cons_of_ne_nil hne
      cases ns <;> rfl
    have hname : ∀ n ∈ ns, ∀ rest, Clean rest → name? ([.name n] ++ rest) = some (n, rest) :=
      fun n _ rest _ => rfl
    have hread := sepBy_length hname hne (by decide) clean_comma hrest hstop
    simp only [columns?, ofColumns, hstar]
    exact congrArg (Option.map _) hread

theorem target?_ofTarget (t : Target) {rest : List Lexeme} (hstop : word? "." rest = none) :
    target? (ofTarget t ++ rest) = some (t, rest) := by
  obtain ⟨schema, table⟩ := t
  cases schema with
  | none =>
    change target? (.name table :: rest) = _
    simp [target?, name?, hstop]
  | some s => rfl

/-- Where the part is left out, its words are not there. -/
theorem optional?_ofOptional {α : Type} {item : Reader α} {write : α → List Lexeme}
    {lead separator : String} {as : List α} {rest : List Lexeme}
    (h : ∀ a ∈ as, ∀ rest, Clean rest → item (write a ++ rest) = some (a, rest))
    (hs : chars separator ≠ []) (hsep : ∀ ls, Clean (chars separator ++ ls)) (hrest : Clean rest)
    (hstop : word? separator rest = none) (hlead : word? lead rest = none) :
    optional? lead
      (sepBy item separator ((ofOptional lead separator (as.map write) ++ rest).length + 1))
      (ofOptional lead separator (as.map write) ++ rest) = some (as, rest) := by
  cases as with
  | nil =>
    change optional? lead _ rest = _
    rw [optional?, hlead]
  | cons a as =>
    have hl : ofOptional lead separator ((a :: as).map write) ++ rest =
        chars lead ++ ((chars separator).intercalate ((a :: as).map write) ++ rest) := by
      simp [ofOptional]
    rw [hl, optional?, word?_chars]
    refine sepBy_map h (List.cons_ne_nil a as) ?_ hsep hrest hstop
    have := length_le_intercalate (chars separator) hs ((a :: as).map write)
    rw [List.length_map] at this
    rw [List.length_append, List.length_append]
    omega

/-! The end of a statement. -/

theorem bounds?_lead (d : Dialect) (k : Option String) (ls : List Lexeme) :
    bounds? (chars (limitLead d) ++ .hole k :: ls) =
      (place? (.hole k :: ls)).bind fun l => if l.2 = [] then some (some l.1, none)
      else (word? " OFFSET " l.2).bind fun ms => (place? ms).bind fun r =>
        if r.2 = [] then some (some l.1, some r.1) else none := by
  cases d <;> rfl

theorem bounds?_ofBounds (d : Dialect) (limit offset : Option Place) :
    bounds? (ofBounds d limit offset) = some (limit, offset) := by
  have hend : ∀ p, place? (ofPlace p) = some (p, []) := by
    intro p
    simpa using @place?_ofPlace p [] rfl
  rcases limit with _ | l <;> rcases offset with _ | o
  · rfl
  · have hread : bounds? (chars "\n LIMIT ALL OFFSET " ++ ofPlace o) =
        (place? (ofPlace o)).bind fun r => if r.2 = [] then some (none, some r.1) else none := rfl
    rw [ofBounds, hread, hend]
    rfl
  · rw [ofBounds]
    refine (bounds?_lead d l.key _).trans ?_
    change (place? (ofPlace l)).bind _ = _
    rw [hend]
    rfl
  · have hclean : Clean (chars " OFFSET " ++ ofPlace o) := rfl
    rw [ofBounds]
    refine (bounds?_lead d l.key _).trans ?_
    change (place? (ofPlace l ++ (chars " OFFSET " ++ ofPlace o))).bind _ = _
    rw [place?_ofPlace l hclean, Option.bind_some, if_neg (by simp [chars]), word?_chars,
      Option.bind_some, hend]
    rfl

/-! What can stand behind a part. -/

/-- Some of these words stand in front, or nothing stands there. -/
def Begins (leads : List String) (ls : List Lexeme) : Prop :=
  ls = [] ∨ ∃ lead ∈ leads, ∃ ms, ls = chars lead ++ ms

/-- The words are found to differ before one of them ends. -/
def differ (s t : String) : Bool := (s.toList.zip t.toList).any fun p => p.1 != p.2

theorem word?_eq_none {s t : String} (h : differ s t = true) (ls : List Lexeme) :
    word? s (chars t ++ ls) = none := by
  unfold differ at h
  unfold word? chars
  generalize s.toList = cs at h ⊢
  generalize t.toList = ds at h ⊢
  induction cs generalizing ds with
  | nil => simp at h
  | cons c cs ih =>
    cases ds with
    | nil => simp at h
    | cons d ds =>
      rw [List.map_cons, List.cons_append, skip?]
      split
      · rename_i he
        exact ih ds (by simpa [he] using h)
      · rfl

theorem Begins.word? {leads : List String} {ls : List Lexeme} (h : Begins leads ls) {s : String}
    (hs : s ≠ "") (hd : (leads.all (differ s)) = true) : word? s ls = none := by
  rcases h with rfl | ⟨lead, hl, ms, rfl⟩
  · obtain ⟨c, cs, hc⟩ := List.exists_cons_of_ne_nil fun h => hs (String.toList_inj.mp h)
    rw [Reading.word?, hc]
    rfl
  · exact word?_eq_none (List.all_eq_true.mp hd lead hl) ms

theorem begins_ofBounds (d : Dialect) (limit offset : Option Place) :
    Begins [" \n LIMIT ", "\n LIMIT "] (ofBounds d limit offset) := by
  have hlead : ∀ ls, Begins [" \n LIMIT ", "\n LIMIT "] (chars (limitLead d) ++ ls) := by
    intro ls
    cases d
    · exact .inr ⟨_, List.mem_cons_self .., ls, rfl⟩
    · exact .inr ⟨_, List.mem_cons_of_mem _ (List.mem_cons_self ..), ls, rfl⟩
  rcases limit with _ | l <;> rcases offset with _ | o
  · exact .inl rfl
  · exact .inr ⟨_, List.mem_cons_of_mem _ (List.mem_cons_self ..), chars "ALL OFFSET " ++ ofPlace o, rfl⟩
  · exact hlead _
  · exact hlead _

theorem Begins.optional {leads : List String} {rest : List Lexeme} (h : Begins leads rest)
    (lead separator : String) (parts : List (List Lexeme)) :
    Begins (lead :: leads) (ofOptional lead separator parts ++ rest) := by
  unfold ofOptional
  split
  · rcases h with rfl | ⟨lead, hl, ms, rfl⟩
    · exact .inl rfl
    · exact .inr ⟨lead, List.mem_cons_of_mem _ hl, ms, rfl⟩
  · exact .inr ⟨lead, List.mem_cons_self .., _, List.append_assoc ..⟩

/-! The whole of a SELECT. -/

/-- A query that can be read again: its lists are not empty. -/
structure Select.IsFull (q : Select) : Prop where
  columns : q.columns ≠ .named []
  filter : ∀ e ∈ q.filter, e.2.IsFull

/-- A query that was written is read as itself, and nothing else is read. -/
theorem select?_ofSelect (d : Dialect) {q : Select} (hq : q.IsFull) :
    select? d (ofSelect d q) = some q := by
  obtain ⟨c, t, f, order, limit, offset⟩ := q
  obtain ⟨hc, hf⟩ := hq
  have hb := begins_ofBounds d limit offset
  have ho := hb.optional " ORDER BY " ", " (order.map ofOrderItem)
  have hw := ho.optional " \nWHERE " " AND " (f.map (ofConjunct d))
  have horder := optional?_ofOptional
    (fun o (_ : o ∈ order) rest _ => orderItem?_ofOrderItem o rest) (by decide) clean_comma
    (hb.word? (s := ":") (by decide) (by decide))
    (hb.word? (s := ", ") (by decide) (by decide))
    (hb.word? (s := " ORDER BY ") (by decide) (by decide))
  have hfilter := optional?_ofOptional (fun e (he : e ∈ f) rest => conjunct?_ofConjunct d (hf e he))
    (by decide) (fun ls => show Clean (chars " AND " ++ ls) from rfl)
    (ho.word? (s := ":") (by decide) (by decide))
    (ho.word? (s := " AND ") (by decide) (by decide))
    (ho.word? (s := " \nWHERE ") (by decide) (by decide))
  have htarget := target?_ofTarget t (hw.word? (s := ".") (by decide) (by decide))
  have hcolumns := @columns?_ofColumns c hc (chars " \nFROM " ++ (ofTarget t ++
    (ofOptional " \nWHERE " " AND " (f.map (ofConjunct d)) ++
      (ofOptional " ORDER BY " ", " (order.map ofOrderItem) ++ ofBounds d limit offset)))) rfl rfl
  simp only [select?, ofSelect, word?_chars, hcolumns, htarget, hfilter, horder, bounds?_ofBounds,
    Option.bind_eq_bind, Option.bind_some]

end Reading
end TableQuery
